import SkyTree.Foundation.Transition
import SkyTree.Subscription.Agreement
import SkyTree.StateRouter.Acquire

/-!
# Fencing of former owners

A connection puts its owner token into its requests, and both centers compare it with the
token of the last takeover. Some requests carry no token, and a session without an owner
record accepts every token, so the fence holds only for requests that meet a record.
-/

namespace SkyTree.StateRouter

open Foundation Mqtt Session Subscription MemorySubCenter Core

/-! ## Requests -/

/-- The requests of a connection; the token in them is that of the connection. -/
inductive OwnerRequest where
  | saveOfflineState (clock : Int) (request : Session.SaveOfflineStateRequest)
  | commitOutgoingProgress (clock : Int) (request : CommitOutgoingProgressRequest)
  | upsertIncomingUnfinished (clock : Int) (request : UpsertIncomingUnfinishedRequest)
  | removeIncomingUnfinished (clock : Int) (request : RemoveIncomingUnfinishedRequest)
  | removeOutgoingUnfinished (clock : Int) (request : RemoveOutgoingUnfinishedRequest)
  | deleteSession (clientID : ClientID)
  | createSub (clientID : ClientID) (topics : List SubOption)
  | deleteSub (clientID : ClientID) (topics : List String)
  | deleteClient (clientID : ClientID)

def OwnerRequest.clientID : OwnerRequest → ClientID
  | .saveOfflineState _ request => request.clientID
  | .commitOutgoingProgress _ request => request.clientID
  | .upsertIncomingUnfinished _ request => request.clientID
  | .removeIncomingUnfinished _ request => request.clientID
  | .removeOutgoingUnfinished _ request => request.clientID
  | .deleteSession clientID => clientID
  | .createSub clientID _ => clientID
  | .deleteSub clientID _ => clientID
  | .deleteClient clientID => clientID

namespace Centers

variable (centers : Centers)

def withSessions (result : Except String Core) : Centers :=
  match result with
  | .error _ => centers
  | .ok sessions => { centers with sessions := sessions }

@[simp] theorem withSessions_subscriptions (res : Except String Core) :
    (centers.withSessions res).subscriptions = centers.subscriptions := by
  cases res <;> rfl

/-- A request as its connection sends it; two of them have no field for the token. -/
def serve (issuer : OwnerToken) : OwnerRequest → Centers
  | .saveOfflineState clock request =>
    centers.withSessions
      (centers.sessions.saveOfflineState clock { request with ownerToken := issuer })
  | .commitOutgoingProgress clock request =>
    centers.withSessions
      (centers.sessions.commitOutgoingProgress clock { request with ownerToken := issuer })
  | .upsertIncomingUnfinished clock request =>
    centers.withSessions
      (centers.sessions.upsertIncomingUnfinished clock { request with ownerToken := issuer })
  | .removeIncomingUnfinished clock request =>
    centers.withSessions
      (centers.sessions.removeIncomingUnfinished clock { request with ownerToken := issuer })
  | .removeOutgoingUnfinished clock request =>
    centers.withSessions (centers.sessions.removeOutgoingUnfinished clock request)
  | .deleteSession clientID =>
    { centers with sessions := centers.sessions.deleteSession clientID }
  | .createSub clientID topics =>
    { centers with subscriptions := (centers.subscriptions.createSub clientID issuer topics).1 }
  | .deleteSub clientID topics =>
    { centers with subscriptions := (centers.subscriptions.deleteSub clientID issuer topics).1 }
  | .deleteClient clientID =>
    { centers with subscriptions := (centers.subscriptions.deleteClient clientID issuer).1 }

end Centers

/-- The operations of both centers. `DeleteTopic` comes from no connection: it may change the
subscriptions and keeps the tokens. -/
inductive CenterOperation where
  | openSession (clock : Int) (request : OpenSessionForConnectRequest)
  | replaceSession (request : OpenSessionForConnectRequest)
  | takeOver (owner : SessionOwner)
  | setOwnerToken (clientID : ClientID) (token : OwnerToken)
  | deleteExpired (clock now : Int)
  | deleteTopic (after : MemorySubCenter)
  | request (issuer : OwnerToken) (request : OwnerRequest)

def Centers.operate (centers : Centers) : CenterOperation → Centers
  | .openSession clock request =>
    centers.withSessions ((centers.sessions.openSessionForConnect clock request).map Prod.fst)
  | .replaceSession request =>
    centers.withSessions (centers.sessions.replaceSessionStateOnCleanStart request)
  | .takeOver owner =>
    centers.withSessions ((centers.sessions.takeOverSessionOwner owner).map Prod.fst)
  | .setOwnerToken clientID token =>
    { centers with
      subscriptions := (centers.subscriptions.setClientOwnerToken clientID token).1 }
  | .deleteExpired clock now =>
    { centers with sessions := centers.sessions.deleteExpiredSessions clock now }
  | .deleteTopic after =>
    { centers with
      subscriptions :=
        { after with clientOwnerTokens := centers.subscriptions.clientOwnerTokens } }
  | .request issuer request => centers.serve issuer request

def centerHistory : System Centers CenterOperation where
  step centers operation := some (centers.operate operation)

/-! ## Tokens of the owner record -/

/-- An owner record, if one is left, has the token of the one before. -/
def KeepsToken (core next : Core) (clientID : ClientID) : Prop :=
  ∀ owner, next.owners clientID = some owner →
    ∃ before, core.owners clientID = some before ∧ before.ownerToken = owner.ownerToken

section KeepsToken

variable {core middle next : Core} {clientID other : ClientID}

theorem KeepsToken.refl : KeepsToken core core clientID := fun owner hr => ⟨owner, hr, rfl⟩

theorem KeepsToken.trans (first : KeepsToken core middle clientID)
    (snd : KeepsToken middle next clientID) : KeepsToken core next clientID := by
  intro owner hr
  obtain ⟨before, hs, he⟩ := snd owner hr
  obtain ⟨ear, hk, heq⟩ := first before hs
  exact ⟨ear, hk, heq.trans he⟩

theorem keepsToken_setSession (sess : SessionState) :
    KeepsToken core (core.setSession other sess) clientID := KeepsToken.refl

theorem keepsToken_deleteSession : KeepsToken core (core.deleteSession other) clientID := by
  intro owner hr
  by_cases own : clientID = other
  · subst own
    simp at hr
  · rw [deleteSession_owners_of_ne _ _ _ own] at hr
    exact ⟨owner, hr, rfl⟩

theorem keepsToken_dropExpired (now : Int) :
    KeepsToken core (core.dropExpired other now) clientID := by
  unfold Core.dropExpired
  split
  · exact keepsToken_deleteSession
  · exact .refl

theorem keepsToken_markOffline : KeepsToken core (core.markOffline other) clientID := by
  unfold Core.markOffline
  split
  next => exact .refl
  next owner hs =>
    intro cur hr
    by_cases own : clientID = other
    · subst own
      rw [setOwner_owners_self] at hr
      cases hr
      exact ⟨owner, hs, rfl⟩
    · rw [setOwner_owners_of_ne _ _ _ _ own] at hr
      exact ⟨cur, hr, rfl⟩

theorem keepsToken_deleteExpired (clock now : Int) :
    KeepsToken core (core.deleteExpiredSessions clock now) clientID := by
  have hd : KeepsToken core (core.dropExpired clientID (requestNowUnixNano clock now))
      clientID := keepsToken_dropExpired _
  exact hd

end KeepsToken

theorem keepsToken_serve (cens : Centers) (clientID : ClientID) (issuer : OwnerToken)
    (req : OwnerRequest) :
    KeepsToken cens.sessions (cens.serve issuer req).sessions clientID := by
  cases req with
  | saveOfflineState clock req =>
    simp only [Centers.serve, Core.saveOfflineState]
    split_ifs
    · exact .refl
    · exact .refl
    · exact keepsToken_deleteSession
    · exact (keepsToken_setSession _).trans keepsToken_markOffline
  | commitOutgoingProgress clock req =>
    simp only [Centers.serve, Core.commitOutgoingProgress]
    split_ifs
    · exact .refl
    · exact .refl
    · split
      · exact keepsToken_dropExpired _
      · exact (keepsToken_dropExpired _).trans (keepsToken_setSession _)
  | upsertIncomingUnfinished clock req =>
    simp only [Centers.serve, Core.upsertIncomingUnfinished]
    split_ifs
    · exact .refl
    · exact .refl
    · exact .refl
    · exact (keepsToken_dropExpired _).trans (keepsToken_setSession _)
  | removeIncomingUnfinished clock req =>
    simp only [Centers.serve, Core.removeIncomingUnfinished]
    split_ifs
    · exact .refl
    · exact .refl
    · exact .refl
    · split
      · exact keepsToken_dropExpired _
      · exact (keepsToken_dropExpired _).trans (keepsToken_setSession _)
  | removeOutgoingUnfinished clock req =>
    simp only [Centers.serve, Core.removeOutgoingUnfinished]
    split_ifs
    · exact .refl
    · split
      · exact keepsToken_dropExpired _
      · exact (keepsToken_dropExpired _).trans (keepsToken_setSession _)
  | deleteSession other => exact keepsToken_deleteSession
  | createSub other topics | deleteSub other topics | deleteClient other => exact .refl

/-! ## The condition on a step -/

namespace Centers

def MeetsRecord (centers : Centers) (clientID : ClientID) : OwnerRequest → Prop
  | .saveOfflineState _ request => centers.sessions.owners clientID ≠ none ∨
      centers.sessions.sessions clientID = none ∧ request.sessionExpiryInterval = 0
  | .commitOutgoingProgress _ _ => centers.sessions.owners clientID ≠ none ∨
      centers.sessions.sessions clientID = none
  | .upsertIncomingUnfinished _ request => centers.sessions.owners clientID ≠ none ∨
      request.packetID = 0
  | .removeIncomingUnfinished _ _ => centers.sessions.owners clientID ≠ none ∨
      centers.sessions.sessions clientID = none
  | .removeOutgoingUnfinished clock request =>
    ∀ session, centers.sessions.sessions clientID = some session →
      sessionExpired (some session) (requestNowUnixNano clock request.nowUnixNano) = false ∧
        ∀ message ∈ session.unfinishedMessages, message.isOutgoing = true →
          message.messageID ≠ request.messageID
  | .deleteSession _ => centers.sessions.sessions clientID = none ∧
      centers.sessions.owners clientID = none
  | _ => True

/-- A request to centers without session and owner record keeps no state for the client. -/
def KeepsAbsent (centers : Centers) (clientID : ClientID) (issuer : OwnerToken) :
    OwnerRequest → Prop
  | .saveOfflineState _ request => request.sessionExpiryInterval = 0
  | .upsertIncomingUnfinished _ request => request.packetID = 0
  | .createSub _ _ => centers.subscriptions.getOwnerToken clientID ≠ "" ∧
      centers.subscriptions.getOwnerToken clientID ≠ issuer
  | _ => True

/-- Takeovers are not older ones, and requests find what the fence relies on. -/
def Fenced (older : OwnerToken → Prop) (clientID : ClientID) (centers : Centers) :
    CenterOperation → Prop
  | .takeOver owner => owner.clientID = clientID → ¬older owner.ownerToken
  | .setOwnerToken other token => other = clientID → token ≠ "" ∧ ¬older token
  | .request issuer request => request.clientID = clientID →
      (older issuer → centers.MeetsRecord clientID request) ∧
        (issuer ≠ "" → centers.sessions.sessions clientID = none →
          centers.sessions.owners clientID = none → centers.KeepsAbsent clientID issuer request)
  | _ => True

structure Current (older : OwnerToken → Prop) (clientID : ClientID) (centers : Centers) : Prop where
  recorded : ∀ owner, centers.sessions.owners clientID = some owner → ¬older owner.ownerToken
  bound : centers.subscriptions.getOwnerToken clientID ≠ "" ∧
    ¬older (centers.subscriptions.getOwnerToken clientID)

section Current

variable {older : OwnerToken → Prop} {clientID : ClientID} {centers : Centers}

section

variable (hc : Current older clientID centers)

include hc

theorem Current.keepsToken {sessions : Core} (hk : KeepsToken centers.sessions sessions clientID) :
    Current older clientID { centers with sessions := sessions } := by
  refine ⟨fun owner hr => ?_, hc.bound⟩
  obtain ⟨before, hs, he⟩ := hk owner hr
  exact he ▸ hc.recorded before hs

theorem Current.createSub {other : ClientID} {issuer : OwnerToken} {topics : List SubOption} :
    Current older clientID
      { centers with subscriptions :=
        (centers.subscriptions.createSub other issuer topics).1 } := by
  refine ⟨hc.recorded, createSub_preserves (P := fun center => center.getOwnerToken clientID ≠ "" ∧
      ¬older (center.getOwnerToken clientID)) topics hc.bound (fun unbound => ?_)
    fun center opt hb => ?_⟩
  · -- only a client without a token gets one
    have hne : clientID ≠ other := fun he => hc.bound.1 (he ▸ unbound)
    have he : (centers.subscriptions.setOwnerToken other issuer).getOwnerToken clientID =
        centers.subscriptions.getOwnerToken clientID := by
      by_cases hu : other = ""
      · simp [MemorySubCenter.setOwnerToken, hu]
      · simp [MemorySubCenter.setOwnerToken, MemorySubCenter.getOwnerToken, hu, hne]
    rw [he]
    exact hc.bound
  · simpa [MemorySubCenter.getOwnerToken] using hb

theorem Current.deleteSub {other : ClientID} {issuer : OwnerToken} {topics : List String} :
    Current older clientID
      { centers with subscriptions :=
        (centers.subscriptions.deleteSub other issuer topics).1 } := by
  refine ⟨hc.recorded, deleteSub_preserves (P := fun center => center.getOwnerToken clientID ≠ "" ∧
      ¬older (center.getOwnerToken clientID)) issuer topics hc.bound fun center topic hb => ?_⟩
  simpa [MemorySubCenter.getOwnerToken] using hb

theorem Current.serve (issuer : OwnerToken)
    (req : OwnerRequest) : Current older clientID (centers.serve issuer req) := by
  have hk := keepsToken_serve centers clientID issuer req
  refine ⟨fun owner hr => ?_, ?_⟩
  · exact (hc.keepsToken hk).recorded owner hr
  · cases req with
    | createSub other topics => exact hc.createSub.bound
    | deleteSub other topics => exact hc.deleteSub.bound
    | deleteClient other =>
      simpa [Centers.serve, MemorySubCenter.getOwnerToken] using hc.bound
    | _ => simpa only [Centers.serve, withSessions_subscriptions] using hc.bound

theorem Current.setOwnerToken {other : ClientID}
    {token : OwnerToken} (hf : other = clientID → token ≠ "" ∧ ¬older token) :
    Current older clientID
      { centers with subscriptions :=
        (centers.subscriptions.setClientOwnerToken other token).1 } := by
  refine ⟨hc.recorded, ?_⟩
  by_cases hn : other = ""
  · simpa [MemorySubCenter.setClientOwnerToken, hn] using hc.bound
  · by_cases he : other = clientID
    · subst he
      simpa [MemorySubCenter.setClientOwnerToken, MemorySubCenter.setOwnerToken, hn,
        MemorySubCenter.getOwnerToken] using hf rfl
    · simpa [MemorySubCenter.setClientOwnerToken, MemorySubCenter.setOwnerToken, hn,
        MemorySubCenter.getOwnerToken, Ne.symm he] using hc.bound

theorem Current.takeOver {owner : SessionOwner}
    (hf : owner.clientID = clientID → ¬older owner.ownerToken) :
    Current older clientID
      { centers with sessions := centers.sessions.setOwner owner.clientID owner } := by
  refine ⟨fun recent hr => ?_, hc.bound⟩
  by_cases he : clientID = owner.clientID
  · subst he
    rw [setOwner_owners_self] at hr
    cases hr
    exact hf rfl
  · rw [setOwner_owners_of_ne _ _ _ _ he] at hr
    exact hc.recorded recent hr

theorem Current.operate {operation : CenterOperation}
    (hf : Fenced older clientID centers operation) :
    Current older clientID (centers.operate operation) := by
  cases operation with
  | openSession clock req =>
    simp only [Centers.operate, Core.openSessionForConnect]
    split
    · exact hc
    · exact hc.keepsToken ((keepsToken_dropExpired _).trans (keepsToken_setSession _))
  | replaceSession req =>
    simp only [Centers.operate, Core.replaceSessionStateOnCleanStart]
    split
    · exact hc
    · exact hc.keepsToken (keepsToken_setSession _)
  | takeOver owner =>
    simp only [Centers.operate, Core.takeOverSessionOwner]
    split
    · exact hc
    · exact hc.takeOver hf
  | setOwnerToken other token => exact hc.setOwnerToken hf
  | deleteExpired clock now => exact hc.keepsToken (keepsToken_deleteExpired clock now)
  | deleteTopic after => exact ⟨hc.recorded, hc.bound⟩
  | request issuer req => exact hc.serve issuer req

end

end Current

/-! ## What a request changes -/

/-- Nothing that is stored for the client differs. -/
structure Unchanged (centers next : Centers) (clientID : ClientID) : Prop where
  session : next.sessions.sessions clientID = centers.sessions.sessions clientID
  owner : next.sessions.owners clientID = centers.sessions.owners clientID
  subscriptions : next.subscriptions.subscriptions clientID =
    centers.subscriptions.subscriptions clientID

section Requests

variable {centers : Centers} {clientID : ClientID} {issuer : OwnerToken}

theorem Unchanged.refl : Unchanged centers centers clientID := ⟨rfl, rfl, rfl⟩

theorem Current.fences {older : OwnerToken → Prop} (hc : Current older clientID centers)
    (hn : issuer ≠ "") (old : older issuer)
    (hr : centers.sessions.owners clientID ≠ none) :
    centers.sessions.staleOwner clientID issuer = true ∧
      centers.sessions.ownerTokenMatches clientID issuer = false := by
  obtain ⟨owner, hs⟩ := Option.ne_none_iff_exists'.mp hr
  have hf : owner.ownerToken ≠ issuer := fun he => hc.recorded owner hs (he ▸ old)
  simp [Core.staleOwner, Core.ownerTokenMatches, hs, hn, hf]

theorem dropExpired_of_absent {core : Core} (ha : core.sessions clientID = none) (now : Int) :
    core.dropExpired clientID now = core := by
  simp [Core.dropExpired, sessionExpired, ha]

theorem deleteSession_of_absent {core : Core} (gone : core.sessions clientID = none)
    (free : core.owners clientID = none) : core.deleteSession clientID = core :=
  (deleteSession_eq_self_iff _ _).mpr ⟨gone, free⟩

theorem removeOutgoingUnfinished_unchanged {core : Core} {clock : Int}
    {req : RemoveOutgoingUnfinishedRequest} {sess : SessionState}
    (hs : core.sessions req.clientID = some sess)
    (hl : sessionExpired (some sess) (requestNowUnixNano clock req.nowUnixNano) = false)
    (ho : ∀ msg ∈ sess.unfinishedMessages, msg.isOutgoing = true →
      msg.messageID ≠ req.messageID) (hn : req.clientID ≠ "") :
    core.removeOutgoingUnfinished clock req = .ok core := by
  have kept : core.dropExpired req.clientID (requestNowUnixNano clock req.nowUnixNano) = core := by
    simp [Core.dropExpired, hs, hl]
  have he : (sess.unfinishedMessages.filter fun msg =>
      !(msg.isOutgoing && msg.messageID == req.messageID)) = sess.unfinishedMessages := by
    rw [List.filter_eq_self]
    intro msg hm
    cases out : msg.isOutgoing with
    | false => rfl
    | true => simp [ho msg hm out]
  have hu : Function.update core.sessions req.clientID (some sess) = core.sessions :=
    Function.update_eq_self_iff.mpr hs.symm
  simp only [Core.removeOutgoingUnfinished, if_neg hn, kept, hs, he]
  simp [Core.setSession, hu]

theorem Current.serve_unchanged {older : OwnerToken → Prop}
    (hc : Current older clientID centers) (hn : issuer ≠ "") (old : older issuer)
    {req : OwnerRequest} (own : req.clientID = clientID)
    (hm : centers.MeetsRecord clientID req) :
    Unchanged centers (centers.serve issuer req) clientID := by
  have hf : centers.subscriptions.getOwnerToken clientID ≠ issuer := fun he => hc.bound.2 (he ▸ old)
  subst own
  cases req <;> dsimp only [OwnerRequest.clientID] at *
  case saveOfflineState clock req =>
    simp only [Centers.serve, Core.saveOfflineState]
    rcases eq_or_ne (centers.sessions.owners req.clientID) none with free | hr
    · obtain ⟨gone, hz⟩ := hm.resolve_left (fun hr => hr free)
      rw [deleteSession_of_absent gone free, if_pos hz, ite_self]
      split_ifs <;> exact .refl
    · rw [if_pos (hc.fences hn old hr).1]
      split_ifs <;> exact .refl
  case commitOutgoingProgress clock req =>
    simp only [Centers.serve, Core.commitOutgoingProgress]
    rcases hm with hr | gone
    · rw [(hc.fences hn old hr).2, Bool.not_false, if_pos rfl]
      split_ifs <;> exact .refl
    · rw [dropExpired_of_absent gone, gone]
      split_ifs <;> exact .refl
  case upsertIncomingUnfinished clock req =>
    simp only [Centers.serve, Core.upsertIncomingUnfinished]
    rcases hm with hr | hz
    · rw [(hc.fences hn old hr).2, Bool.not_false, if_pos rfl]
      split_ifs <;> exact .refl
    · rw [if_pos hz]
      split_ifs <;> exact .refl
  case removeIncomingUnfinished clock req =>
    simp only [Centers.serve, Core.removeIncomingUnfinished]
    rcases hm with hr | gone
    · rw [(hc.fences hn old hr).2, Bool.not_false, if_pos rfl]
      split_ifs <;> exact .refl
    · rw [dropExpired_of_absent gone, gone]
      split_ifs <;> exact .refl
  case removeOutgoingUnfinished clock req =>
    rw [Centers.serve]
    by_cases hu : req.clientID = ""
    · rw [Core.removeOutgoingUnfinished, if_pos hu]
      exact .refl
    · cases hs : centers.sessions.sessions req.clientID with
      | none =>
        simp only [Core.removeOutgoingUnfinished, if_neg hu, dropExpired_of_absent hs, hs]
        exact .refl
      | some sess =>
        obtain ⟨hl, ho⟩ := hm sess hs
        rw [removeOutgoingUnfinished_unchanged hs hl ho hu]
        exact .refl
  case deleteSession other =>
    rw [Centers.serve, deleteSession_of_absent hm.1 hm.2]
    exact .refl
  case createSub other topics =>
    rw [Centers.serve, MemorySubCenter.createSub, if_pos ⟨hn, hc.bound.1, hf⟩]
    exact .refl
  case deleteSub other topics =>
    rw [Centers.serve, MemorySubCenter.deleteSub, if_pos ⟨hn, hf⟩]
    exact .refl
  case deleteClient other =>
    rw [Centers.serve, deleteClient_fenced _ hn hf]
    exact .refl

/-! ## What a request re-creates -/

/-- The client has no session afterwards and no subscription that it had not before. -/
structure NotRevived (centers next : Centers) (clientID : ClientID) : Prop where
  session : next.sessions.sessions clientID = none
  subscriptions : ∀ key, ∀ stored ∈ next.subscriptions.subscriptions clientID key,
    stored ∈ centers.subscriptions.subscriptions clientID key

theorem deleteOne_subscriptions {center : MemorySubCenter} {topic key : String} {stored : SubOption}
    (hm : stored ∈ (center.deleteOne clientID topic).1.subscriptions clientID key) :
    stored ∈ center.subscriptions clientID key := by
  have hs {shards : Assoc String SubCore}
      (hi : stored ∈ topicsIn (Assoc.set shards (shardKeyFromTopic topic)
        (((shards.lookup (shardKeyFromTopic topic)).getD .empty).deleteSub clientID topic))
          key clientID) : stored ∈ topicsIn shards key clientID := by
    by_cases he : key = shardKeyFromTopic topic
    · subst he
      rw [topicsIn_set_self] at hi
      exact ((SubCore.mem_topicsOf_deleteSub _).mp hi).1
    · rwa [topicsIn_set_of_ne _ _ he] at hi
  unfold MemorySubCenter.deleteOne at hm
  split at hm
  · exact hm
  · split at hm <;> exact hs hm

theorem deleteClient_subscriptions {center : MemorySubCenter} {key : String} {stored : SubOption}
    (hm : stored ∈ (center.deleteClient clientID issuer).1.subscriptions clientID key) :
    stored ∈ center.subscriptions clientID key := by
  unfold MemorySubCenter.deleteClient at hm
  split at hm
  · exact hm
  · split at hm
    · exact hm
    · simp only [MemorySubCenter.subscriptions, MemorySubCenter.forceDeleteClient,
        topicsIn_deleteFromShards_self] at hm
      split at hm
      · simp at hm
      · exact hm

theorem serve_notRevived (hn : issuer ≠ "") (gone : centers.sessions.sessions clientID = none)
    (free : centers.sessions.owners clientID = none) {req : OwnerRequest}
    (own : req.clientID = clientID) (hk : centers.KeepsAbsent clientID issuer req) :
    NotRevived centers (centers.serve issuer req) clientID := by
  have hu : NotRevived centers centers clientID := ⟨gone, fun _ _ hm => hm⟩
  subst own
  cases req <;> dsimp only [OwnerRequest.clientID] at *
  case saveOfflineState clock req =>
    simp only [Centers.serve, Core.saveOfflineState]
    have hz : req.sessionExpiryInterval = 0 := hk
    rw [deleteSession_of_absent gone free, if_pos hz, ite_self]
    split_ifs <;> exact hu
  case commitOutgoingProgress clock req =>
    simp only [Centers.serve, Core.commitOutgoingProgress]
    rw [dropExpired_of_absent gone, gone]
    split_ifs <;> exact hu
  case upsertIncomingUnfinished clock req =>
    simp only [Centers.serve, Core.upsertIncomingUnfinished]
    have hz : req.packetID = 0 := hk
    rw [if_pos hz]
    split_ifs <;> exact hu
  case removeIncomingUnfinished clock req =>
    simp only [Centers.serve, Core.removeIncomingUnfinished]
    rw [dropExpired_of_absent gone, gone]
    split_ifs <;> exact hu
  case removeOutgoingUnfinished clock req =>
    simp only [Centers.serve, Core.removeOutgoingUnfinished]
    rw [dropExpired_of_absent gone, gone]
    split_ifs <;> exact hu
  case deleteSession other =>
    rw [Centers.serve, deleteSession_of_absent gone free]
    exact hu
  case createSub other topics =>
    rw [Centers.serve, MemorySubCenter.createSub, if_pos ⟨hn, hk⟩]
    exact hu
  case deleteSub other topics =>
    exact ⟨gone, deleteSub_preserves
      (P := fun center => ∀ key, ∀ stored ∈ center.subscriptions other key,
        stored ∈ centers.subscriptions.subscriptions other key) issuer topics
      (fun _ _ hm => hm)
      fun _ _ kept key stored hm => kept key stored (deleteOne_subscriptions hm)⟩
  case deleteClient other => exact ⟨gone, fun key stored hm => deleteClient_subscriptions hm⟩

end Requests

end Centers

/-! ## Histories -/

/-- After a takeover that both centers applied, in every history whose steps are fenced, a
request of an older connection changes nothing stored for the client, and once session and owner
record are gone no request of a former owner brings state back. -/
theorem former_owner_fenced {older : OwnerToken → Prop} {clientID : ClientID}
    {owner : SessionOwner} {start s : Centers} (tokens : ∀ token, older token → token ≠ "")
    (recorded : start.sessions.owners clientID = some owner)
    (mirrored : start.subscriptions.getOwnerToken clientID = owner.ownerToken)
    (named : owner.ownerToken ≠ "") (recent : ¬older owner.ownerToken)
    (reached : centerHistory.Reached (Centers.Fenced older clientID) start s)
    {issuer : OwnerToken} {request : OwnerRequest} (own : request.clientID = clientID)
    (fenced : s.Fenced older clientID (.request issuer request)) :
    (older issuer → Centers.Unchanged s (s.serve issuer request) clientID) ∧
      (issuer ≠ "" → s.sessions.sessions clientID = none → s.sessions.owners clientID = none →
        Centers.NotRevived s (s.serve issuer request) clientID) := by
  have hi : Centers.Current older clientID start := by
    refine ⟨fun current hs => ?_, mirrored ▸ ⟨named, recent⟩⟩
    obtain rfl := Option.some.inj (recorded.symm.trans hs)
    exact recent
  have current : Centers.Current older clientID s := by
    refine reached.invariant hi fun s operation next current met ht => ?_
    cases ht
    exact current.operate met
  obtain ⟨hm, hk⟩ := fenced own
  refine ⟨fun hf => ?_, fun hn gone free => ?_⟩
  · exact current.serve_unchanged (tokens issuer hf) hf own (hm hf)
  · exact Centers.serve_notRevived hn gone free own (hk hn gone free)

/-! ### A takeover by `b` -/

/-- Both centers know `b` as the owner; one outgoing message is unfinished. -/
def takenOverCenters : Centers where
  sessions := (Core.empty.setSession "client"
    { clientID := "client"
      sessionExpiryInterval := neverExpireSessionInterval
      unfinishedMessages := [{ messageID := 7, packetID := 1, qos := 1, state := .waitingPubAck,
                               isOutgoing := true }] }).setOwner "client"
    { clientID := "client", nodeID := 1, ownerToken := "b", online := true }
  subscriptions := MemorySubCenter.empty.setOwnerToken "client" "b"

def incomingPublish : UpsertIncomingUnfinishedRequest where
  clientID := "client"
  ownerToken := ""
  packetID := 3
  unfinishedMessage :=
    { messageID := 8, packetID := 3, qos := 2, state := .waitingPubRel, isOutgoing := false }
  nowUnixNano := 1

/-- The old connection stores nothing while `b` is recorded, and its late unsubscription brings
nothing back once `b` has deleted the session. -/
theorem former_owner_fenced_by_record : Centers.Unchanged takenOverCenters
        (takenOverCenters.serve "a" (.upsertIncomingUnfinished 0 incomingPublish)) "client" ∧
      ∃ s, centerHistory.step takenOverCenters (.request "b" (.deleteSession "client")) = some s ∧
        Centers.NotRevived s (s.serve "a" (.deleteSub "client" ["t"])) "client" := by
  have ht : ∀ token, token = "a" → token ≠ "" := by
    rintro _ rfl
    decide
  constructor
  · refine (@former_owner_fenced (· = "a") "client" _ takenOverCenters _ ht rfl rfl (by decide)
      (by decide) .refl "a" (.upsertIncomingUnfinished 0 incomingPublish) rfl
      fun _ => ⟨fun _ => Or.inl (by decide), ?_⟩).1 rfl
    intro _ gone
    exact absurd gone (by decide)
  · refine ⟨_, rfl, (@former_owner_fenced (· = "a") "client" _ takenOverCenters _ ht rfl rfl
      (by decide) (by decide) (.step .refl ?_ rfl) "a" (.deleteSub "client" ["t"]) rfl
      fun _ => ⟨fun _ => trivial, fun _ _ _ => trivial⟩).2 (by decide) rfl rfl⟩
    exact fun _ => ⟨fun hf => absurd hf (by decide), fun _ gone =>
      absurd gone (by decide)⟩

/-- The removal of an outgoing message carries no token, and without an owner record any token
passes. -/
theorem former_owner_not_fenced : (takenOverCenters.serve "a" (.removeOutgoingUnfinished 0
        { clientID := "client", messageID := 7, nowUnixNano := 1 })).sessions.sessions "client" ≠
        takenOverCenters.sessions.sessions "client" ∧
      ((takenOverCenters.serve "b" (.deleteSession "client")).serve "a"
        (.upsertIncomingUnfinished 0 incomingPublish)).sessions.sessions "client" ≠ none := by
  decide

end SkyTree.StateRouter
