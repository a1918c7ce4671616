import SkyTree.Acl.Manager

/-!
# The identity behind a decision

The plugin keeps one username per client identifier. The hook on CONNECT fills the
table before the attempt is accepted, and the hooks on PUBLISH and SUBSCRIBE read it
by the identifier of the connection. An attempt with the identifier of another
connection therefore changes the identity under which that connection is judged.
-/

namespace SkyTree.Acl

open Foundation Function

universe u

structure ConnectIdentity where
  usernameFlag : Bool
  username : String

def ConnectIdentity.name (connect : ConnectIdentity) : String :=
  if connect.usernameFlag = true ∧ connect.username ≠ "" then connect.username else ""

inductive AclPacket where
  | publish (topic : String)
  | subscribe (filters : List String)

def Ruleset.judge (ruleset : Ruleset) (username : String) (clientID : ClientID) :
    AclPacket → Except String Unit
  | .publish topic => onReceivedPublish ruleset username clientID topic
  | .subscribe filters => onSubscribe ruleset username clientID filters

structure AclPlugin where
  usernameByClient : ClientID → Option String := fun _ => none
  evaluator : Option Ruleset := none

namespace AclPlugin

variable (plugin : AclPlugin) (defaultDeny : Bool) (stored : Option Ruleset)

/-- The first use loads the stored ruleset. -/
def ensureLoaded : Except String AclPlugin :=
  match plugin.evaluator with
  | some _ => .ok plugin
  | none =>
    match evaluatorOf defaultDeny stored with
    | none => .error "acl ruleset not found"
    | some ruleset => .ok { plugin with evaluator := some ruleset }

/-- The username is recorded even when the rules cannot be loaded. -/
def onReceivedConnect (clientID : ClientID) (connect : ConnectIdentity) :
    AclPlugin × Except String Unit :=
  if clientID = "" then (plugin, .ok ())
  else
    let recorded := { plugin with
      usernameByClient := Function.update plugin.usernameByClient clientID (some connect.name) }
    match recorded.ensureLoaded defaultDeny stored with
    | .error err => (recorded, .error err)
    | .ok loaded => (loaded, .ok ())

def username (clientID : ClientID) : String :=
  if clientID = "" then "" else (plugin.usernameByClient clientID).getD ""

def judge (clientID : ClientID) (packet : AclPacket) : AclPlugin × Except String Unit :=
  match plugin.ensureLoaded defaultDeny stored with
  | .error err => (plugin, .error err)
  | .ok loaded =>
    match loaded.evaluator with
    | none => (loaded, .error "acl evaluator is nil")
    | some ruleset => (loaded, ruleset.judge (loaded.username clientID) clientID packet)

end AclPlugin

/-! ## Connections -/

inductive ConnectionPhase where
  | fresh
  | pending (clientID : ClientID) (connect : ConnectIdentity)
  | live (clientID : ClientID) (connect : ConnectIdentity)
  | closed

/-- The CONNECT of a connection that is accepted or may still be. -/
def ConnectionPhase.Open (phase : ConnectionPhase) (clientID : ClientID)
    (connect : ConnectIdentity) : Prop :=
  phase = .pending clientID connect ∨ phase = .live clientID connect

structure AclState (κ : Type u) where
  plugin : AclPlugin := {}
  phases : κ → ConnectionPhase := fun _ => .fresh

/-- What happens on connection `k`; a connection that takes over is accepted before the old one
is closed. -/
inductive ConnectionEvent where
  | connect (clientID : ClientID) (connect : ConnectIdentity)
  | refuse
  | accept
  | close
  | packet (packet : AclPacket)

namespace AclState

variable {κ : Type u} [DecidableEq κ] (s : AclState κ)

def setPhase (k : κ) (phase : ConnectionPhase) : AclState κ :=
  { s with phases := Function.update s.phases k phase }

/-- The handler has given the connection an identifier before the hook runs. -/
def happen (defaultDeny : Bool) (stored : Option Ruleset) (k : κ) :
    ConnectionPhase → ConnectionEvent → Option (AclState κ)
  | .fresh, .connect clientID connect =>
    if clientID = "" then none
    else
      match s.plugin.onReceivedConnect defaultDeny stored clientID connect with
      | (plugin, .ok ()) => some { s.setPhase k (.pending clientID connect) with plugin := plugin }
      | (plugin, .error _) => some { s.setPhase k .closed with plugin := plugin }
  | .pending _ _, .refuse => some (s.setPhase k .closed)
  | .pending clientID connect, .accept => some (s.setPhase k (.live clientID connect))
  | .live _ _, .close => some (s.setPhase k .closed)
  | .live clientID _, .packet packet =>
    some { s with plugin := (s.plugin.judge defaultDeny stored clientID packet).1 }
  | _, _ => none

end AclState

def aclConnections {κ : Type u} [DecidableEq κ] (defaultDeny : Bool) (stored : Option Ruleset) :
    System (AclState κ) (κ × ConnectionEvent) where
  step s event := s.happen defaultDeny stored event.1 (s.phases event.1) event.2

/-! ## Identities in the table -/

def ConnectionEvent.nameFor (clientID : ClientID) (before : Option String) :
    ConnectionEvent → Option String
  | .connect otherID identity => if otherID = clientID then some identity.name else before
  | _ => before

/-- The username that the latest CONNECT under an identifier carried. -/
def latestName {κ : Type u} (clientID : ClientID) (events : List (κ × ConnectionEvent))
    (before : Option String := none) : Option String :=
  events.foldl (fun latest event => event.2.nameFor clientID latest) before

namespace AclState

variable {κ : Type u} {deny : Bool} {stored : Option Ruleset} {s next : AclState κ}

structure Identified (deny : Bool) (stored : Option Ruleset) (s : AclState κ) : Prop where
  loaded : ∀ ruleset, s.plugin.evaluator = some ruleset → evaluatorOf deny stored = some ruleset
  judged : ∀ k clientID connect, (s.phases k).Open clientID connect →
    clientID ≠ "" ∧ s.plugin.evaluator ≠ none

theorem initial_identified : ({} : AclState κ).Identified deny stored where
  loaded _ found := by cases found
  judged _ _ _ isOpen := by rcases isOpen with pending | live <;> contradiction

theorem ensureLoaded_ok {plugin loaded : AclPlugin}
    (rules : ∀ ruleset, plugin.evaluator = some ruleset → evaluatorOf deny stored = some ruleset)
    (ok : plugin.ensureLoaded deny stored = .ok loaded) :
    loaded.usernameByClient = plugin.usernameByClient ∧
      ∃ ruleset, loaded.evaluator = some ruleset ∧ evaluatorOf deny stored = some ruleset := by
  unfold AclPlugin.ensureLoaded at ok
  split at ok
  next ruleset found =>
    obtain rfl := Except.ok.inj ok
    exact ⟨rfl, ruleset, found, rules ruleset found⟩
  next =>
    split at ok
    next => cases ok
    next ruleset found =>
      obtain rfl := Except.ok.inj ok
      exact ⟨rfl, ruleset, rfl, found⟩

theorem judge_plugin {plugin : AclPlugin} {ruleset : Ruleset} {clientID : ClientID}
    {packet : AclPacket} (found : plugin.evaluator = some ruleset) :
    plugin.judge deny stored clientID packet =
      (plugin, ruleset.judge (plugin.username clientID) clientID packet) := by
  have loaded : plugin.ensureLoaded deny stored = .ok plugin := by
    unfold AclPlugin.ensureLoaded
    rw [found]
  rw [AclPlugin.judge, loaded]
  simp only [found]

variable [DecidableEq κ]

@[simp] theorem setPhase_phases_self {k : κ} {phase : ConnectionPhase} :
    (s.setPhase k phase).phases k = phase := update_self ..

@[simp] theorem setPhase_phases_of_ne {k other : κ} {phase : ConnectionPhase}
    (hne : other ≠ k) : (s.setPhase k phase).phases other = s.phases other :=
  update_of_ne hne ..

theorem open_setPhase {k other : κ} {phase : ConnectionPhase} {clientID : ClientID}
    {connect : ConnectIdentity}
    (isOpen : ((s.setPhase k phase).phases other).Open clientID connect) :
    other = k ∧ phase.Open clientID connect ∨ (s.phases other).Open clientID connect := by
  by_cases own : other = k
  · subst own
    rw [setPhase_phases_self] at isOpen
    exact .inl ⟨rfl, isOpen⟩
  · rw [setPhase_phases_of_ne own] at isOpen
    exact .inr isOpen

theorem Identified.setPhase (identified : s.Identified deny stored) {k : κ}
    {phase : ConnectionPhase}
    (kept : ∀ clientID connect, phase.Open clientID connect →
      (s.phases k).Open clientID connect) :
    (s.setPhase k phase).Identified deny stored where
  loaded := identified.loaded
  judged other clientID connect isOpen := by
    rcases open_setPhase isOpen with ⟨rfl, own⟩ | before
    · exact identified.judged other clientID connect (kept clientID connect own)
    · exact identified.judged other clientID connect before

theorem closed_not_open {clientID : ClientID} {connect : ConnectIdentity} :
    ¬ConnectionPhase.closed.Open clientID connect := by
  rintro (pending | live)
  · cases pending
  · cases live

theorem onReceivedConnect_cases {plugin : AclPlugin} {clientID : ClientID}
    {connect : ConnectIdentity} (named : clientID ≠ "")
    (rules : ∀ ruleset, plugin.evaluator = some ruleset → evaluatorOf deny stored = some ruleset) :
    (∃ err, plugin.onReceivedConnect deny stored clientID connect = ({ plugin with
           usernameByClient := Function.update plugin.usernameByClient clientID
             (some connect.name) }, .error err)) ∨
      ∃ ruleset, evaluatorOf deny stored = some ruleset ∧
        plugin.onReceivedConnect deny stored clientID connect =
          ({ usernameByClient := Function.update plugin.usernameByClient clientID
               (some connect.name)
             evaluator := some ruleset }, .ok ()) := by
  rw [AclPlugin.onReceivedConnect, if_neg named]
  dsimp only
  split
  next err failed => exact .inl ⟨err, rfl⟩
  next loaded ok =>
    obtain ⟨table, ruleset, found, same⟩ := ensureLoaded_ok (by exact rules) ok
    refine .inr ⟨ruleset, same, ?_⟩
    cases loaded
    simp only at table found
    rw [table, found]

theorem Identified.connect (identified : s.Identified deny stored) {k : κ}
    {clientID : ClientID} {connect : ConnectIdentity}
    (taken : s.happen deny stored k .fresh (.connect clientID connect) = some next) :
    next.Identified deny stored ∧ next.plugin.usernameByClient =
      Function.update s.plugin.usernameByClient clientID (some connect.name) := by
  obtain ⟨named, met⟩ := Option.ite_none_left_eq_some.mp taken
  rcases onReceivedConnect_cases named identified.loaded with
    ⟨err, result⟩ | ⟨ruleset, same, result⟩
  · rw [result] at met
    cases met
    refine ⟨⟨identified.loaded, fun other otherID otherConnect isOpen => ?_⟩, rfl⟩
    rcases open_setPhase isOpen with ⟨-, own⟩ | before
    · exact absurd own closed_not_open
    · exact identified.judged other otherID otherConnect before
  · rw [result] at met
    cases met
    refine ⟨⟨fun current loaded => ?_, fun other otherID otherConnect isOpen => ?_⟩, rfl⟩
    · cases loaded
      exact same
    · refine ⟨?_, by simp⟩
      rcases open_setPhase isOpen with ⟨-, pending | live⟩ | before
      · exact (ConnectionPhase.pending.inj pending).1 ▸ named
      · cases live
      · exact (identified.judged other otherID otherConnect before).1

theorem Identified.step (identified : s.Identified deny stored) {event : κ × ConnectionEvent}
    (taken : (aclConnections deny stored).step s event = some next) :
    next.Identified deny stored ∧ ∀ clientID, next.plugin.usernameByClient clientID =
      event.2.nameFor clientID (s.plugin.usernameByClient clientID) := by
  obtain ⟨k, event⟩ := event
  have met : s.happen deny stored k (s.phases k) event = some next := taken
  unfold happen at met
  split at met
  next otherID connect phase =>
    obtain ⟨kept, table⟩ := identified.connect met
    refine ⟨kept, fun clientID => ?_⟩
    rw [table, update_apply, ConnectionEvent.nameFor]
    simp only [eq_comm]
  next clientID connect phase =>
    cases met
    exact ⟨identified.setPhase fun _ _ isOpen => absurd isOpen closed_not_open, fun _ => rfl⟩
  next clientID connect phase =>
    cases met
    refine ⟨identified.setPhase fun otherID other isOpen => ?_, fun _ => rfl⟩
    rcases isOpen with pending | live
    · cases pending
    · obtain ⟨rfl, rfl⟩ := ConnectionPhase.live.inj live
      exact .inl phase
  next clientID connect phase =>
    cases met
    exact ⟨identified.setPhase fun _ _ isOpen => absurd isOpen closed_not_open, fun _ => rfl⟩
  next clientID connect packet phase =>
    obtain ⟨ruleset, found⟩ :=
      Option.ne_none_iff_exists'.mp (identified.judged k clientID connect (.inr phase)).2
    rw [judge_plugin found] at met
    cases met
    exact ⟨identified, fun _ => rfl⟩
  next => cases met

theorem Identified.run (identified : s.Identified deny stored)
    {events : List (κ × ConnectionEvent)} {later : AclState κ}
    (taken : (aclConnections deny stored).run s events = some later) :
    later.Identified deny stored ∧ ∀ clientID, later.plugin.usernameByClient clientID =
      latestName clientID events (s.plugin.usernameByClient clientID) := by
  induction events generalizing s with
  | nil =>
    cases taken
    exact ⟨identified, fun _ => rfl⟩
  | cons event rest ih =>
    cases first : (aclConnections deny stored).step s event with
    | none => simp [System.run, first] at taken
    | some next =>
      rw [System.run, first] at taken
      obtain ⟨kept, table⟩ := identified.step first
      obtain ⟨kept, rest⟩ := ih kept taken
      refine ⟨kept, fun clientID => ?_⟩
      rw [rest, table]
      rfl

end AclState

/-- In every run a live connection is judged by the stored rules under the name of its own
CONNECT, while that is the name of the latest CONNECT under its identifier. -/
theorem judged_by_own_username {κ : Type u} [DecidableEq κ] {defaultDeny : Bool}
    {stored : Option Ruleset} {events : List (κ × ConnectionEvent)} {s : AclState κ} {k : κ}
    {clientID : ClientID} {connect : ConnectIdentity}
    (taken : (aclConnections defaultDeny stored).run {} events = some s)
    (live : s.phases k = .live clientID connect)
    (latest : latestName clientID events = some connect.name) (packet : AclPacket) :
    ∃ ruleset, evaluatorOf defaultDeny stored = some ruleset ∧
      (s.plugin.judge defaultDeny stored clientID packet).2 =
        ruleset.judge connect.name clientID packet := by
  obtain ⟨identified, table⟩ := AclState.initial_identified.run taken
  obtain ⟨named, loaded⟩ := identified.judged k clientID connect (.inr live)
  obtain ⟨ruleset, found⟩ := Option.ne_none_iff_exists'.mp loaded
  refine ⟨ruleset, identified.loaded ruleset found, ?_⟩
  rw [AclState.judge_plugin found, AclPlugin.username, if_neg named, (table clientID).trans latest]
  rfl

/-! ### A second attempt with the same identifier -/

def eveRules : Ruleset where
  rules := [{ identity := { username := "eve" }, deny := { pub := ["t"] } }]

def signedIn (username : String) : ConnectIdentity := ⟨true, username⟩

/-- Another user takes the identifier over, and the first user takes it back. -/
theorem judged_by_own_username_eve :
    ∃ s : AclState (Fin 3), s.phases 2 = .live "c" (signedIn "eve") ∧
      ∃ ruleset, evaluatorOf false (some eveRules) = some ruleset ∧
        (s.plugin.judge false (some eveRules) "c" (.publish "t")).2 =
          ruleset.judge "eve" "c" (.publish "t") := by
  let events : List (Fin 3 × ConnectionEvent) :=
    [(0, .connect "c" (signedIn "eve")), (0, .accept), (1, .connect "c" (signedIn "bob")),
      (1, .accept), (0, .close), (2, .connect "c" (signedIn "eve")), (2, .accept)]
  obtain ⟨s, taken, live⟩ : ∃ s, (aclConnections false (some eveRules)).run {} events = some s ∧
      s.phases 2 = .live "c" (signedIn "eve") := ⟨_, rfl, rfl⟩
  exact ⟨s, live, judged_by_own_username taken live (by decide) (.publish "t")⟩

/-- An attempt that is refused changes the name under which the live connection is judged. -/
theorem judged_by_other_username :
    ∃ s : AclState Bool, (aclConnections false (some eveRules)).Reached (fun _ _ => True) {} s ∧
      s.phases false = .live "c" (signedIn "eve") ∧ s.phases true = .closed ∧
      (s.plugin.judge false (some eveRules) "c" (.publish "t")).2 = .ok () ∧
      eveRules.judge "eve" "c" (.publish "t") ≠ .ok () := by
  obtain ⟨s, taken, judged⟩ : ∃ s : AclState Bool, (aclConnections false (some eveRules)).run {}
      [(false, .connect "c" (signedIn "eve")), (false, .accept),
        (true, .connect "c" (signedIn "bob")), (true, .refuse)] = some s ∧
      s.phases false = .live "c" (signedIn "eve") ∧ s.phases true = .closed ∧
      (s.plugin.judge false (some eveRules) "c" (.publish "t")).2 = .ok () ∧
      eveRules.judge "eve" "c" (.publish "t") ≠ .ok () := ⟨_, rfl, rfl, rfl, by decide, by decide⟩
  exact ⟨s, System.reached_of_run taken (.of_forall fun _ _ _ => trivial), judged⟩

end SkyTree.Acl
