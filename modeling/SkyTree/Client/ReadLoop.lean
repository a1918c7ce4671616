import SkyTree.Client.RefusedConnect
import SkyTree.Wire.Property

/-!
# The order in which inbound packets are handled

`Run` reads one packet after the other and hands each to `HandlePacket`, which checks
the packet against the connection's identifier and its enhanced authentication state
before it dispatches. Neither field says that a CONNACK was written; that it was
follows from what the handlers of CONNECT and AUTH have done when they return without
an error.
-/

namespace SkyTree.Client

open Foundation Session List

abbrev PacketType := SkyTree.Wire.PacketType

inductive AuthReason where
  | success
  | continueAuthentication
  | reauthenticate
  deriving DecidableEq, Repr

inductive InboundPacket where
  | connect (packet : Connect)
  | auth (authMethod : String) (reason : AuthReason)
  | disconnect (reasonCode : Nat) (allowed serverReference : Bool)
      (sessionExpiryInterval : Option Nat)
  | plain (type : PacketType) (other : type ≠ .connect ∧ type ≠ .auth ∧ type ≠ .disconnect)
  deriving DecidableEq

def InboundPacket.type : InboundPacket → PacketType
  | .connect _ => .connect
  | .auth _ _ => .auth
  | .disconnect _ _ _ _ => .disconnect
  | .plain type _ => type

inductive HandlerOutcome where
  | returnsError
  | closesConnection
  | returnsNil
  deriving DecidableEq, Repr

/-- What the environment answers while one inbound packet is handled. A takeover that
fails has no owner token, and one whose response carries none has the empty token. -/
structure HandlerAnswers extends ConnectAnswers where
  sizeAllowed : Bool := true
  connectSessionExpiryInterval : Nat := 0
  takenOverOwnerToken : Option OwnerToken := some "token"
  connAckWritten : Bool := true
  outcome : HandlerOutcome := .returnsNil
  -- `uuid.NewString` never returns the empty string
  assigned_nonempty : assignedClientID ≠ "" := by decide

inductive ConnectionEvent where
  | handled (type : PacketType)
  | authWritten
  | successConnAckWritten
  deriving DecidableEq

inductive LoopPhase where
  | selecting
  | reading
  | returned
  deriving DecidableEq, Repr

/-- The read loop of one connection; `log` has the latest event first. -/
structure ReadLoop where
  client : Connection := {}
  phase : LoopPhase := .selecting
  contextDone : Bool := false
  log : List ConnectionEvent := []
  deriving DecidableEq

def isClientToServerPacket : PacketType → Bool
  | .connect | .publish | .puback | .pubrec | .pubrel | .pubcomp | .subscribe | .unsubscribe
  | .pingreq | .disconnect | .auth => true
  | _ => false

/-- Whether `validateInboundPacketState` lets a packet of this type through. -/
def validateInboundPacketState (client : Connection) (type : PacketType) : Bool :=
  if type ≠ .connect ∧ client.id = "" then false
  else if type = .connect ∧ client.id ≠ "" then false
  else if client.enhancedAuthState = .authenticating ∧ type ≠ .auth ∧ type ≠ .disconnect then false
  else isClientToServerPacket type

def handleAuthAfterConnect (client : Connection) (authMethod : String) (expected : Bool)
    (answers : HandlerAnswers) : Phase :=
  if authMethod = "" ∨ client.enhancedAuthMethod = "" ∨ authMethod ≠ client.enhancedAuthMethod ∨
      expected = false then .closed client
  else
    let answered (client : Connection) : Phase :=
      if answers.authPacketWritten then .running client else .closed client
    match answers.auth with
    | .failed => .closed client
    | .continueAuthentication => answered { client with enhancedAuthState := .reauthenticating }
    | .success => answered { client with enhancedAuthState := .authenticated }
    | .rejected => .closed client

namespace ReadLoop

def returnError (loop : ReadLoop) (client : Connection) : ReadLoop :=
  { loop with client := client, phase := .returned, contextDone := true }

/-- The handler closed the connection. Whether or not it returns an error, the next
`select` finds the context done. -/
def closed (loop : ReadLoop) (client : Connection) : ReadLoop :=
  { loop with client := client, phase := .selecting, contextDone := true }

/-- The part of `completeConnect` after admission and plugin. -/
def openSession (maximum : Nat) (loop : ReadLoop) (client : Connection)
    (answers : HandlerAnswers) : ReadLoop :=
  let client := { client with
    connectSessionExpiryInterval := answers.connectSessionExpiryInterval
    sessionExpiryInterval :=
      capSessionExpiryInterval answers.connectSessionExpiryInterval maximum }
  match answers.takenOverOwnerToken with
  | none => loop.returnError client
  | some ownerToken =>
    if ownerToken = "" then loop.returnError client
    else
      let client := { client with ownerToken := ownerToken }
      if answers.connAckWritten then
        { loop with
          client := client
          phase := .selecting
          log := .successConnAckWritten :: loop.log }
      else loop.returnError client

/-- What the loop does with the verdict of a CONNECT or AUTH handler: a connection that
still runs has been sent an AUTH packet. -/
def settle (maximum : Nat) (loop : ReadLoop) (answers : HandlerAnswers) : Phase → ReadLoop
  | .running client =>
    { loop with client := client, phase := .selecting, log := .authWritten :: loop.log }
  | .closed client => loop.returnError client
  | .accepted client => loop.openSession maximum client answers

def handleAuth (maximum : Nat) (loop : ReadLoop) (authMethod : String) (reason : AuthReason)
    (answers : HandlerAnswers) : ReadLoop :=
  loop.settle maximum answers <|
    match loop.client.enhancedAuthState with
    | .authenticating =>
      Client.handleAuth loop.client authMethod (reason = .continueAuthentication)
        answers.toConnectAnswers
    | .authenticated =>
      handleAuthAfterConnect loop.client authMethod (reason = .reauthenticate) answers
    | .reauthenticating =>
      handleAuthAfterConnect loop.client authMethod (reason = .continueAuthentication) answers
    | .idle => .closed loop.client

def handlePlain (loop : ReadLoop) : HandlerOutcome → ReadLoop
  | .returnsError => loop.returnError loop.client
  | .closesConnection => loop.closed loop.client
  | .returnsNil => { loop with phase := .selecting }

def dispatchInboundPacket (maximum : Nat) (loop : ReadLoop) (packet : InboundPacket)
    (answers : HandlerAnswers) : ReadLoop :=
  let loop := { loop with log := .handled packet.type :: loop.log }
  match packet with
  | .connect packet =>
    loop.settle maximum answers (handleConnect loop.client packet answers.toConnectAnswers)
  | .auth authMethod reason => loop.handleAuth maximum authMethod reason answers
  | .disconnect reasonCode allowed serverReference interval =>
    match handleDisconnect maximum loop.client reasonCode allowed serverReference interval with
    | .running client | .closed client | .accepted client => loop.closed client
  | .plain _ _ => loop.handlePlain answers.outcome

def handlePacket (maximum : Nat) (loop : ReadLoop) (packet : InboundPacket)
    (answers : HandlerAnswers) : ReadLoop :=
  if !answers.sizeAllowed then loop.returnError loop.client
  else if !validateInboundPacketState loop.client packet.type then loop.returnError loop.client
  else loop.dispatchInboundPacket maximum packet answers

end ReadLoop

inductive LoopLabel where
  | select
  | readError
  | packet (packet : InboundPacket) (answers : HandlerAnswers)
  /-- A takeover, a failed write or a shutdown ends the context, at any time. -/
  | contextEnds

def readLoop (maximum : Nat) : System ReadLoop LoopLabel where
  step loop label :=
    match label, loop.phase with
    | .select, .selecting =>
      some { loop with phase := if loop.contextDone then .returned else .reading }
    | .readError, .reading => some (loop.returnError loop.client)
    | .packet packet answers, .reading => some (loop.handlePacket maximum packet answers)
    | .contextEnds, _ => some { loop with contextDone := true }
    | _, _ => none

/-- The CONNECT was answered with an AUTH packet and not yet with a successful CONNACK. -/
def AuthenticationUnfinished (log : List ConnectionEvent) : Prop :=
  .authWritten ∈ log ∧ .successConnAckWritten ∉ log

/-- What a running read loop knows from the fields `validateInboundPacketState` reads. -/
inductive Stage (client : Connection) (log : List ConnectionEvent) : Prop where
  | fresh : client.id = "" → client.enhancedAuthState = .idle → log = [] → Stage client log
  | authenticating : client.id ≠ "" → client.enhancedAuthState = .authenticating →
      AuthenticationUnfinished log → Stage client log
  | connected : client.id ≠ "" → client.enhancedAuthState ≠ .authenticating →
      .successConnAckWritten ∈ log → Stage client log

/-- Whether a packet of this type may be handled after the events of `earlier`. -/
structure InOrder (earlier : List ConnectionEvent) (type : PacketType) : Prop where
  acknowledged : type ≠ .connect → type ≠ .auth → type ≠ .disconnect →
    .successConnAckWritten ∈ earlier
  connectOnce : type = .connect → .handled .connect ∉ earlier
  authentication : AuthenticationUnfinished earlier → type = .auth ∨ type = .disconnect

def Ordered : List ConnectionEvent → Prop
  | [] => True
  | .handled type :: earlier => InOrder earlier type ∧ Ordered earlier
  | _ :: earlier => Ordered earlier

variable {log : List ConnectionEvent}

theorem Ordered.inOrder (ho : Ordered log) {later ear : List ConnectionEvent}
    {type : PacketType} (split : log = later ++ .handled type :: ear) :
    InOrder ear type := by
  subst split
  induction later with
  | nil => exact ho.1
  | cons event rest ih =>
    cases event with
    | handled _ => exact ih ho.2
    | authWritten => exact ih ho
    | successConnAckWritten => exact ih ho

theorem Ordered.count_connect (ho : Ordered log) : log.count (.handled .connect) ≤ 1 := by
  induction log with
  | nil => exact Nat.zero_le _
  | cons event rest ih =>
    cases event with
    | handled type =>
      obtain ⟨order, ordered⟩ := ho
      by_cases hc : type = .connect
      · have ha := count_eq_zero.mpr (order.connectOnce hc)
        rw [hc, count_cons_self, ha]
      · rw [count_cons_of_ne (by simpa using hc)]
        exact ih ordered
    | authWritten =>
      rw [count_cons_of_ne (by simp)]
      exact ih ho
    | successConnAckWritten =>
      rw [count_cons_of_ne (by simp)]
      exact ih ho

variable {cli : Connection}

theorem Stage.inOrder {type : PacketType} (stage : Stage cli log)
    (hv : validateInboundPacketState cli type = true) :
    InOrder log type := by
  unfold validateInboundPacketState at hv
  cases stage with
  | fresh hu _ bare =>
    subst bare
    have hc : type = .connect := by
      by_contra ho
      simp [ho, hu] at hv
    exact ⟨fun ho => absurd hc ho, fun _ => not_mem_nil, fun open' => nomatch open'.1⟩
  | authenticating hn hs _ =>
    have hh : type = .auth ∨ type = .disconnect := by
      by_contra hne
      rw [not_or] at hne
      simp [hn, hs, hne.1, hne.2] at hv
    refine ⟨fun _ notAuth stays => ?_, fun hc => ?_, fun _ => hh⟩
    · exact absurd hh (not_or.mpr ⟨notAuth, stays⟩)
    · rcases hh with auth | hd
      · exact absurd (hc.symm.trans auth) (by decide)
      · exact absurd (hc.symm.trans hd) (by decide)
  | connected hn _ ha =>
    refine ⟨fun _ _ _ => ha, fun hc => ?_, fun open' => ?_⟩
    · simp [hc, hn] at hv
    · exact absurd ha open'.2

/-- A CONNECT handler that returns without an error has named the connection, and the
connection waits for AUTH exactly when it was not accepted. -/
def Phase.Named : Phase → Prop
  | .running client => client.id ≠ "" ∧ client.enhancedAuthState = .authenticating
  | .accepted client => client.id ≠ "" ∧ client.enhancedAuthState ≠ .authenticating
  | .closed _ => True

theorem completeConnect_named (ans : ConnectAnswers) (hn : cli.id ≠ "")
    (hs : cli.enhancedAuthState ≠ .authenticating) :
    (completeConnect cli ans).Named := by
  unfold completeConnect
  split
  · trivial
  · split
    · trivial
    · exact ⟨hn, hs⟩

theorem handleInitialEnhancedAuth_named (packet : Connect) (ans : ConnectAnswers)
    (hn : cli.id ≠ "") (hs : cli.enhancedAuthState = .idle) :
    (handleInitialEnhancedAuth cli packet ans).Named := by
  have notWaiting : cli.enhancedAuthState ≠ .authenticating := by rw [hs]; decide
  unfold handleInitialEnhancedAuth
  split
  · exact completeConnect_named ans hn notWaiting
  · cases ans.auth with
    | failed | rejected => trivial
    | success => exact completeConnect_named ans hn (by simp)
    | continueAuthentication =>
      dsimp only
      split
      · exact ⟨hn, rfl⟩
      · trivial

theorem handleConnect_named (packet : Connect) (ans : HandlerAnswers)
    (hs : cli.enhancedAuthState = .idle) :
    (handleConnect cli packet ans.toConnectAnswers).Named := by
  unfold handleConnect
  split
  · trivial
  · refine handleInitialEnhancedAuth_named packet ans.toConnectAnswers ?_ hs
    dsimp only
    split
    · exact ans.assigned_nonempty
    · assumption

theorem handleAuth_named (authMethod : String) (continues : Bool) (ans : ConnectAnswers)
    (hn : cli.id ≠ "") (hs : cli.enhancedAuthState = .authenticating) :
    (handleAuth cli authMethod continues ans).Named := by
  unfold handleAuth
  split
  · trivial
  · cases ans.auth with
    | failed | rejected => trivial
    | continueAuthentication =>
      dsimp only
      split
      · exact ⟨hn, hs⟩
      · trivial
    | success =>
      cases cli.pendingEnhancedAuthConnect with
      | none => trivial
      | some packet => exact completeConnect_named ans hn (by simp)

theorem handleAuthAfterConnect_running {next : Connection} {authMethod : String} {expected : Bool}
    {ans : HandlerAnswers}
    (hr : handleAuthAfterConnect cli authMethod expected ans = .running next) :
    next.id = cli.id ∧ next.enhancedAuthState ≠ .authenticating := by
  unfold handleAuthAfterConnect at hr
  split at hr
  · nomatch hr
  · dsimp only at hr
    split at hr
    · nomatch hr
    · split at hr
      · obtain rfl := Phase.running.inj hr
        exact ⟨rfl, by simp⟩
      · nomatch hr
    · split at hr
      · obtain rfl := Phase.running.inj hr
        exact ⟨rfl, by simp⟩
      · nomatch hr
    · nomatch hr

theorem handleAuthAfterConnect_not_accepted {next : Connection} {authMethod : String}
    {expected : Bool} {ans : HandlerAnswers} :
    handleAuthAfterConnect cli authMethod expected ans ≠ .accepted next := by
  intro ha
  unfold handleAuthAfterConnect at ha
  dsimp only at ha
  split at ha
  · nomatch ha
  · split at ha
    · nomatch ha
    · split at ha <;> nomatch ha
    · split at ha <;> nomatch ha
    · nomatch ha

namespace ReadLoop

/-- The log is in order, and a loop that has not returned is in one of the stages; a loop
whose context is done handles at most the packet it is already reading. -/
structure Sound (loop : ReadLoop) : Prop where
  ordered : Ordered loop.log
  stage : loop.phase = .reading ∨ (loop.phase = .selecting ∧ loop.contextDone = false) →
    Stage loop.client loop.log

variable {max : Nat} {loop : ReadLoop} {ans : HandlerAnswers}

theorem Sound.returnError (cli : Connection) (ho : Ordered loop.log) :
    (loop.returnError cli).Sound :=
  ⟨ho, fun hr => by simp [ReadLoop.returnError] at hr⟩

theorem Sound.closed (cli : Connection) (ho : Ordered loop.log) : (loop.closed cli).Sound :=
  ⟨ho, fun hr => by simp [ReadLoop.closed] at hr⟩

theorem Sound.openSession {cli : Connection} (ho : Ordered loop.log)
    (hn : cli.id ≠ "") (hs : cli.enhancedAuthState ≠ .authenticating) :
    (loop.openSession max cli ans).Sound := by
  unfold ReadLoop.openSession
  cases ans.takenOverOwnerToken with
  | none => exact .returnError _ ho
  | some tok =>
    dsimp only
    split
    · exact .returnError _ ho
    · split
      · exact ⟨ho, fun _ => .connected hn hs mem_cons_self⟩
      · exact .returnError _ ho

/-- The verdict of the initial handshake: until the CONNACK is written, the log has none. -/
theorem Sound.settle_handshake {verdict : Phase} (ho : Ordered loop.log)
    (hn : verdict.Named) (unacked : .successConnAckWritten ∉ loop.log) :
    (loop.settle max ans verdict).Sound := by
  cases verdict with
  | running cli =>
    have hu : AuthenticationUnfinished (.authWritten :: loop.log) :=
      ⟨mem_cons_self, by simpa using unacked⟩
    exact ⟨ho, fun _ => .authenticating hn.1 hn.2 hu⟩
  | closed cli => exact .returnError cli ho
  | accepted cli => exact .openSession ho hn.1 hn.2

theorem Sound.settle_reauthentication {authMethod : String} {expected : Bool}
    (ho : Ordered loop.log) (hn : loop.client.id ≠ "")
    (ha : .successConnAckWritten ∈ loop.log) :
    (loop.settle max ans (handleAuthAfterConnect loop.client authMethod expected ans)).Sound := by
  cases hv : handleAuthAfterConnect loop.client authMethod expected ans with
  | running cli =>
    obtain ⟨he, hs⟩ := handleAuthAfterConnect_running hv
    have hk : cli.id ≠ "" := by
      rw [he]
      exact hn
    exact ⟨ho, fun _ => .connected hk hs (mem_cons_of_mem _ ha)⟩
  | closed cli => exact .returnError cli ho
  | accepted cli => exact absurd hv handleAuthAfterConnect_not_accepted

theorem Sound.handleAuth {authMethod : String} {reason : AuthReason} (ho : Ordered loop.log)
    (hn : loop.client.id ≠ "")
    (hw : loop.client.enhancedAuthState = .authenticating → .successConnAckWritten ∉ loop.log)
    (hc : loop.client.enhancedAuthState ≠ .authenticating → .successConnAckWritten ∈ loop.log) :
    (loop.handleAuth max authMethod reason ans).Sound := by
  unfold ReadLoop.handleAuth
  cases hs : loop.client.enhancedAuthState with
  | idle => exact .returnError _ ho
  | authenticating =>
    exact .settle_handshake ho (handleAuth_named _ _ _ hn hs) (hw hs)
  | authenticated | reauthenticating =>
    exact .settle_reauthentication ho hn (hc (by simp [hs]))

theorem Sound.handlePlain {out : HandlerOutcome} (ho : Ordered loop.log)
    (hs : Stage loop.client loop.log) : (loop.handlePlain out).Sound := by
  cases out with
  | returnsError => exact .returnError _ ho
  | closesConnection => exact .closed _ ho
  | returnsNil => exact ⟨ho, fun _ => hs⟩

theorem Sound.dispatchInboundPacket {packet : InboundPacket} (ho : Ordered loop.log)
    (stage : Stage loop.client loop.log)
    (hv : validateInboundPacketState loop.client packet.type = true) :
    (loop.dispatchInboundPacket max packet ans).Sound := by
  have hl : Ordered (.handled packet.type :: loop.log) := ⟨stage.inOrder hv, ho⟩
  cases packet with
  | connect packet =>
    cases stage with
    | fresh _ hs bare =>
      exact .settle_handshake hl (handleConnect_named packet ans hs) (by simp [bare])
    | authenticating hn _ _ =>
      simp [validateInboundPacketState, InboundPacket.type, hn] at hv
    | connected hn _ _ =>
      simp [validateInboundPacketState, InboundPacket.type, hn] at hv
  | auth authMethod reason =>
    cases stage with
    | fresh hu _ _ =>
      simp [validateInboundPacketState, InboundPacket.type, hu] at hv
    | authenticating hn hs open' =>
      exact .handleAuth hl hn (fun _ => by simpa using open'.2) (fun other => absurd hs other)
    | connected hn hs ha =>
      exact .handleAuth hl hn (fun he => absurd he hs) (fun _ => mem_cons_of_mem _ ha)
  | disconnect code allowed serverReference ival =>
    unfold ReadLoop.dispatchInboundPacket
    dsimp only
    split <;> exact .closed _ hl
  | plain type other =>
    obtain ⟨notConnect, notAuth, stays⟩ := other
    refine .handlePlain hl ?_
    cases stage with
    | fresh hu _ _ =>
      simp [validateInboundPacketState, InboundPacket.type, hu, notConnect] at hv
    | authenticating hn hs _ =>
      simp [validateInboundPacketState, InboundPacket.type, hn, hs, notConnect, notAuth,
        stays] at hv
    | connected hn hs ha =>
      exact .connected hn hs (mem_cons_of_mem _ ha)

theorem Sound.handlePacket {packet : InboundPacket} (ho : Ordered loop.log)
    (hs : Stage loop.client loop.log) :
    (loop.handlePacket max packet ans).Sound := by
  unfold ReadLoop.handlePacket
  split
  · exact .returnError _ ho
  · split
    · exact .returnError _ ho
    · next valid => exact .dispatchInboundPacket ho hs (by simpa using valid)

theorem Sound.step {next : ReadLoop} {label : LoopLabel} (sound : loop.Sound)
    (taken : (readLoop max).step loop label = some next) : next.Sound := by
  cases label with
  | select =>
    cases phase : loop.phase with
    | selecting =>
      simp only [readLoop, phase, Option.some.injEq] at taken
      subst taken
      refine ⟨sound.ordered, fun running => sound.stage (.inr ⟨phase, ?_⟩)⟩
      cases done : loop.contextDone with
      | false => rfl
      | true => simp [done] at running
    | reading => simp [readLoop, phase] at taken
    | returned => simp [readLoop, phase] at taken
  | readError =>
    cases phase : loop.phase with
    | reading =>
      simp only [readLoop, phase, Option.some.injEq] at taken
      subst taken
      exact .returnError _ sound.ordered
    | selecting => simp [readLoop, phase] at taken
    | returned => simp [readLoop, phase] at taken
  | packet packet ans =>
    cases phase : loop.phase with
    | reading =>
      simp only [readLoop, phase, Option.some.injEq] at taken
      subst taken
      exact .handlePacket sound.ordered (sound.stage (.inl phase))
    | selecting => simp [readLoop, phase] at taken
    | returned => simp [readLoop, phase] at taken
  | contextEnds =>
    simp only [readLoop, Option.some.injEq] at taken
    subst taken
    exact ⟨sound.ordered, fun running =>
      sound.stage (running.imp_right fun selecting => absurd selecting.2 (by simp))⟩

end ReadLoop

/-- Over every run of the read loop: a packet other than CONNECT, AUTH and DISCONNECT is
handled only after a successful CONNACK, at most one CONNECT is handled, and until the
initial enhanced authentication is finished only AUTH and DISCONNECT are. -/
theorem handled_in_order {maximum : Nat} {loop : ReadLoop}
    (reached : (readLoop maximum).Reached (fun _ _ => True) {} loop) :
    (∀ later type earlier, loop.log = later ++ .handled type :: earlier →
      (type ≠ .connect → type ≠ .auth → type ≠ .disconnect → .successConnAckWritten ∈ earlier) ∧
      (AuthenticationUnfinished earlier → type = .auth ∨ type = .disconnect)) ∧
    loop.log.count (.handled .connect) ≤ 1 := by
  have sound : loop.Sound := reached.invariant ⟨trivial, fun _ => .fresh rfl rfl rfl⟩
    fun _ _ _ sound _ taken => sound.step taken
  have ho := sound.ordered
  refine ⟨fun later type earlier split => ?_, ho.count_connect⟩
  have order := ho.inOrder split
  exact ⟨order.acknowledged, order.authentication⟩

def authenticatedPublisher : List LoopLabel :=
  [.select, .packet (.connect { clientID := "c", authMethod := "m" })
      { auth := .continueAuthentication },
    .select, .packet (.auth "m" .continueAuthentication) { auth := .continueAuthentication },
    .select, .packet (.auth "m" .continueAuthentication) {},
    .select, .packet (.plain .publish (by decide)) {},
    .select, .packet (.connect { clientID := "c", authMethod := "" }) {}]

theorem handled_in_order_publisher : ∃ loop, (readLoop 0).Reached (fun _ _ => True) {} loop ∧
      loop.log = [.handled .publish, .successConnAckWritten, .handled .auth, .authWritten,
        .handled .auth, .authWritten, .handled .connect] ∧
      loop.phase = .returned ∧
      (∀ later type earlier, loop.log = later ++ .handled type :: earlier →
        (type ≠ .connect → type ≠ .auth → type ≠ .disconnect → .successConnAckWritten ∈ earlier) ∧
        (AuthenticationUnfinished earlier → type = .auth ∨ type = .disconnect)) ∧
      loop.log.count (.handled .connect) ≤ 1 := by
  have hr := System.reached_of_run
    (show (readLoop 0).run {} authenticatedPublisher = some _ from rfl)
    (.of_forall fun _ _ _ => trivial)
  exact ⟨_, hr, rfl, rfl, handled_in_order hr⟩

end SkyTree.Client
