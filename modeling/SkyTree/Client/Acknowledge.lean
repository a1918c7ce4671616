import SkyTree.Client.Inflight

/-!
# Acknowledgements of outgoing messages

A terminal acknowledgement marks its entry, returns the entry's flow token and
moves the delivery cursor over the acknowledged prefix of the table. The handlers
look at the packet identifier and the quality of service; only a successful PUBREC
looks at the state of the exchange.
-/

namespace SkyTree.Client

open Foundation Delivery Mqtt

/-- The table and bucket of a connection, the client's delivery queue, and the shared
tasks reported as processed. -/
structure Downlink where
  inflight : InflightTable
  bucket : Bucket
  queue : ClientQueue
  processed : List (String × UUID) := []

def completeSharedDeliveryTask (processed : List (String × UUID)) (shareGroup : String)
    (taskID : UUID) : List (String × UUID) :=
  if shareGroup = "" ∨ taskID = UUID.nil then processed else processed ++ [(shareGroup, taskID)]

namespace Downlink

section

variable (advances : Position → Bool) (downlink : Downlink)

/-- Move the cursor onto one popped entry; `advances` tells which store calls succeed. -/
def advanceOne (entry : InflightEntry) :
    Downlink :=
  if entry.retained then downlink
  else if advances entry.position then
    { downlink with
      queue := (downlink.queue.advanceCursor entry.position).1
      processed :=
        completeSharedDeliveryTask downlink.processed entry.shareGroup entry.sharedTaskID }
  else downlink

def advanceAckedOutgoingInflight : Downlink :=
  downlink.inflight.popAckedInOrder.1.foldl (advanceOne advances)
    { downlink with inflight := downlink.inflight.popAckedInOrder.2 }

variable (packetID : PacketID)

def completeTerminalOutgoingInflight (qos : Nat) : Downlink :=
  match downlink.inflight.ackTarget packetID qos with
  | none => downlink
  | some entry =>
    advanceAckedOutgoingInflight advances
      { downlink with
        inflight := downlink.inflight.setAcked packetID
        bucket := if entry.flowTokenHeld then downlink.bucket.putToken else downlink.bucket }

/-- Success and failure both complete the entry. -/
def handlePubAck :
    Downlink :=
  completeTerminalOutgoingInflight advances downlink packetID 1

def pubrecTarget : Option InflightEntry :=
  (downlink.inflight.get packetID).filter fun entry =>
    entry.qos == 2 && entry.state == .waitingPubRec

/-- The second component tells whether a PUBREL is sent. -/
def handlePubRec (advances : Position → Bool) (downlink : Downlink) (packetID : PacketID)
    (reasonCode : Nat) : Downlink × Bool :=
  if mqtt5ReasonCodeIsError reasonCode then
    (completeTerminalOutgoingInflight advances downlink packetID 2, false)
  else
    match downlink.pubrecTarget packetID with
    | none => (downlink, false)
    | some _ =>
      ({ downlink with
          inflight := downlink.inflight.updateState packetID .waitingPubComp }, true)

/-- Neither the reason code nor the state of the exchange matters. -/
def handlePubComp (advances : Position → Bool) (downlink : Downlink) (packetID : PacketID) :
    Downlink :=
  completeTerminalOutgoingInflight advances downlink packetID 2

end

section Lemmas

variable {adv : Position → Bool} {down : Downlink}

@[simp] theorem advanceOne_inflight (ent : InflightEntry) :
    (down.advanceOne adv ent).inflight = down.inflight := by
  unfold advanceOne
  split
  · rfl
  · split <;> rfl

@[simp] theorem advanceOne_bucket (ent : InflightEntry) :
    (down.advanceOne adv ent).bucket = down.bucket := by
  unfold advanceOne
  split
  · rfl
  · split <;> rfl

variable (popped : List InflightEntry)

theorem foldl_advanceOne_inflight (down : Downlink) :
    (popped.foldl (advanceOne adv) down).inflight = down.inflight := by
  induction popped generalizing down with
  | nil => rfl
  | cons ent rest ih =>
    rw [List.foldl_cons, ih, advanceOne_inflight]

theorem foldl_advanceOne_bucket (down : Downlink) :
    (popped.foldl (advanceOne adv) down).bucket = down.bucket := by
  induction popped generalizing down with
  | nil => rfl
  | cons ent rest ih =>
    rw [List.foldl_cons, ih, advanceOne_bucket]

theorem foldl_advanceOne_passed (down : Downlink) {pos : Position}
    (hp : (popped.foldl (advanceOne adv) down).queue.Passed pos) :
    down.queue.Passed pos ∨ ∃ ent ∈ popped, ent.retained = false ∧ pos ≤ ent.position := by
  induction popped generalizing down with
  | nil => exact .inl hp
  | cons ent rest ih =>
    rcases ih _ hp with hb | ⟨later, hm, ht, below⟩
    · unfold advanceOne at hb
      split at hb
      · exact .inl hb
      · split at hb
        · rcases ClientQueue.passed_advanceCursor_iff.mp hb with he | hr
          · exact .inl he
          · exact .inr ⟨ent, by simp, by simp_all, hr⟩
        · exact .inl hb
    · exact .inr ⟨later, by simp [hm], ht, below⟩

theorem foldl_advanceOne_keeps (down : Downlink)
    {task : DeliveryTask} (hs : task ∈ down.queue.tasks)
    (hb : ∀ ent ∈ popped, ent.retained = false → ent.position < task.position) :
    task ∈ (popped.foldl (advanceOne adv) down).queue.tasks := by
  induction popped generalizing down with
  | nil => exact hs
  | cons ent rest ih =>
    apply ih
    · unfold advanceOne
      split
      next => exact hs
      next unretained =>
        split
        · apply ClientQueue.mem_advanceCursor_of_lt hs
          exact hb ent (by simp) (by simpa using unretained)
        · exact hs
    · intro later hm task
      exact hb later (by simp [hm]) task

variable {pid : PacketID} {qos : Nat} {ent : InflightEntry}

section

variable (hit : down.inflight.ackTarget pid qos = some ent)

include hit

theorem completeTerminal_of_hit : completeTerminalOutgoingInflight adv down pid qos =
      advanceAckedOutgoingInflight adv { down with
          inflight := down.inflight.setAcked pid
          bucket := if ent.flowTokenHeld then down.bucket.putToken else down.bucket } := by
  unfold completeTerminalOutgoingInflight
  rw [hit]

theorem completeTerminal_inflight : (completeTerminalOutgoingInflight adv down pid qos).inflight =
      (down.inflight.setAcked pid).popAckedInOrder.2 := by
  rw [completeTerminal_of_hit hit]
  unfold advanceAckedOutgoingInflight
  rw [foldl_advanceOne_inflight]

end

end Lemmas

end Downlink

end SkyTree.Client
