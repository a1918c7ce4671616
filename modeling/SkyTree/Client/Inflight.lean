import SkyTree.Delivery.Store
import SkyTree.Foundation.KeyedTable

/-!
# The outgoing inflight table and the publish bucket

Unfinished QoS 1 and QoS 2 sends are kept by packet identifier. Acknowledged
entries leave the table only as a prefix in task order, so the delivery cursor
does not skip an entry that is still waiting. The bucket holds the unused part of
the peer's Receive Maximum. A packet identifier for a send is searched with a wrapping
counter that skips the identifiers in the table.
-/

namespace SkyTree.Client

open Foundation Delivery Mqtt List

inductive InflightState where
  | waitingPubAck
  | waitingPubRec
  | waitingPubComp
  deriving DecidableEq, Repr

/-- `outgoingInflightEntry`; the time of first sending is in microseconds. -/
structure InflightEntry where
  packetID : PacketID
  qos : Nat
  position : Position
  generation : Int := 0
  messageID : UUID
  shareGroup : String := ""
  sharedTaskID : UUID := UUID.nil
  retained : Bool := false
  publishPacket : Option Publish := none
  firstPubTime : Nat := 0
  acked : Bool := false
  flowTokenHeld : Bool := false
  state : InflightState
  persistedInSession : Bool := false
  deriving DecidableEq

abbrev InflightTable := KeyedTable InflightEntry.packetID

namespace InflightTable

variable (table : InflightTable) (packetID : PacketID)

def updateState (state : InflightState) : InflightTable :=
  table.modify packetID (fun entry => { entry with state := state }) fun _ => rfl

/-- The entry that a terminal acknowledgement of this quality of service hits. -/
def ackTarget (qos : Nat) : Option InflightEntry :=
  (table.get packetID).filter fun entry => entry.qos == qos && !entry.acked

def setAcked : InflightTable :=
  table.modify packetID (fun entry => { entry with acked := true }) fun _ => rfl

def setFlowTokenHeld (held : Bool) : InflightTable :=
  table.modify packetID (fun entry => { entry with flowTokenHeld := held }) fun _ => rfl

def inOrder : List InflightEntry :=
  table.entries.insertionSort fun a b => a.position ≤ b.position

/-- `PopAckedInOrder`: the acknowledged prefix, and the table without it. -/
def popAckedInOrder : List InflightEntry × InflightTable :=
  let popped := table.inOrder.takeWhile fun entry => entry.acked
  (popped, table.filter fun entry => !decide (entry ∈ popped))

def firstUnacked : Option InflightEntry := table.inOrder.find? fun entry => !entry.acked

def lastTask : Option InflightEntry := table.inOrder.getLast?

variable {table} {ent : InflightEntry}

theorem mem_inOrder : ent ∈ table.inOrder ↔ ent ∈ table := mem_insertionSort _

theorem inOrder_sorted : table.inOrder.Pairwise fun a b => a.position ≤ b.position :=
  pairwise_insertionSort _ _

theorem ackTarget_eq_some_iff {pid : PacketID} {qos : Nat} : table.ackTarget pid qos = some ent ↔
      ent ∈ table ∧ ent.packetID = pid ∧ ent.qos = qos ∧ ent.acked = false := by
  simp [ackTarget, Option.filter_eq_some_iff, KeyedTable.get_eq_some_iff, and_assoc]

theorem popAckedInOrder_popped (hp : ent ∈ table.popAckedInOrder.1) :
    ent ∈ table ∧ ent.acked = true ∧ ∀ o ∈ table, o.acked = false → ent.position ≤ o.position := by
  have ha : ent.acked = true := mem_takeWhile_imp hp
  have hl : ent ∈ table.inOrder := takeWhile_subset _ hp
  refine ⟨mem_inOrder.mp hl, ha, ?_⟩
  intro o hs hw
  have split := takeWhile_append_dropWhile (p := fun ent => ent.acked) (l := table.inOrder)
  have sorted := table.inOrder_sorted
  rw [← split] at sorted
  have listed' : o ∈ table.inOrder := mem_inOrder.mpr hs
  rw [← split] at listed'
  rcases mem_append.mp listed' with hf | hb
  · have contradiction : o.acked = true := mem_takeWhile_imp hf
    simp [hw] at contradiction
  · exact (pairwise_append.mp sorted).2.2 ent hp o hb

theorem popAckedInOrder_rest :
    ent ∈ table.popAckedInOrder.2 ↔ ent ∈ table ∧ ent ∉ table.popAckedInOrder.1 := by
  simp [popAckedInOrder]

theorem popAckedInOrder_keeps (hs : ent ∈ table) (hw : ent.acked = false) :
    ent ∈ table.popAckedInOrder.2 := by
  refine popAckedInOrder_rest.mpr ⟨hs, ?_⟩
  intro hp
  obtain ⟨-, ha, -⟩ := popAckedInOrder_popped hp
  simp [hw] at ha

theorem firstUnacked_eq_some (first : table.firstUnacked = some ent) :
    ent ∈ table ∧ ent.acked = false := by
  have hl := mem_of_find?_eq_some first
  have hw := find?_some first
  exact ⟨mem_inOrder.mp hl, by simpa using hw⟩

theorem lastTask_eq_some (last : table.lastTask = some ent) :
    ent ∈ table ∧ ∀ o ∈ table, o.position ≤ ent.position := by
  obtain ⟨front, split⟩ := getLast?_eq_some_iff.mp last
  have sorted := table.inOrder_sorted
  rw [split] at sorted
  refine ⟨mem_inOrder.mp (by rw [split]; simp), ?_⟩
  intro o hs
  have hl : o ∈ table.inOrder := mem_inOrder.mpr hs
  rw [split] at hl
  rcases mem_append.mp hl with inFront | isLast
  · exact (pairwise_append.mp sorted).2.2 o inFront ent (by simp)
  · rw [mem_singleton.mp isLast]

end InflightTable

/-- `rate.Bucket` with a positive capacity. -/
structure Bucket where
  capacity : Nat
  tokens : Nat
  bounded : tokens ≤ capacity
  deriving DecidableEq

namespace Bucket

def new (capacity : Nat) : Bucket := ⟨capacity, capacity, le_rfl⟩

def tryGetToken (bucket : Bucket) : Option Bucket :=
  if 0 < bucket.tokens then
    some { bucket with tokens := bucket.tokens - 1, bounded := by have := bucket.bounded; omega }
  else none

def putToken (bucket : Bucket) : Bucket :=
  { bucket with
    tokens := min (bucket.tokens + 1) bucket.capacity
    bounded := Nat.min_le_right _ _ }

theorem tryGetToken_eq_some {bkt next : Bucket} (ht : bkt.tryGetToken = some next) :
    next.capacity = bkt.capacity ∧ next.tokens + 1 = bkt.tokens := by
  unfold tryGetToken at ht
  split at ht
  · cases ht
    exact ⟨rfl, by simp only; omega⟩
  · cases ht

theorem putToken_tryGetToken {bkt next : Bucket} (ht : bkt.tryGetToken = some next) :
    next.putToken = bkt := by
  obtain ⟨capacity, tokens⟩ := tryGetToken_eq_some ht
  have bounded := bkt.bounded
  cases bkt
  simp only [putToken, mk.injEq] at *
  omega

end Bucket

/-! ### Packet identifiers -/

/-- The counter of `PacketIDFactory`. -/
structure PacketIDFactory where
  id : UInt16
  deriving DecidableEq, Repr

namespace PacketIDFactory

def nextPacketID (factory : PacketIDFactory) : PacketIDFactory :=
  let id := if factory.id = 65535 then 1 else factory.id + 1
  { id := if id = 0 then 1 else id }

theorem nextPacketID_toNat (factory : PacketIDFactory) :
    factory.nextPacketID.id.toNat = factory.id.toNat % 65535 + 1 := by
  have hb := factory.id.toNat_lt
  unfold nextPacketID
  by_cases top : factory.id = 65535
  · simp [top]
  · have below : factory.id.toNat ≠ 65535 := fun he => top (UInt16.toNat_inj.mp he)
    have hs : (factory.id + 1).toNat = factory.id.toNat + 1 := by
      rw [UInt16.toNat_add, UInt16.toNat_one, Nat.mod_eq_of_lt (by omega)]
    have hp : factory.id + 1 ≠ 0 := by
      intro hz
      rw [hz] at hs
      cases hs
    simp only [if_neg top, if_neg hp, hs]
    omega

/-- The counter takes every identifier once before it takes one again. -/
theorem nextPacketID_cycle (factory : PacketIDFactory) :
    ((range 65535).map fun n => (nextPacketID^[n + 1] factory).id).Nodup ∧
      ∀ n, (nextPacketID^[n + 65536] factory).id = (nextPacketID^[n + 1] factory).id := by
  have he (n : Nat) : (nextPacketID^[n + 1] factory).id.toNat =
      (factory.id.toNat + n) % 65535 + 1 := by
    induction n with
    | zero => exact factory.nextPacketID_toNat
    | succ n ih =>
      rw [Function.iterate_succ_apply', nextPacketID_toNat, ih]
      omega
  constructor
  · refine nodup_range.map_on fun i hi j hj hij => ?_
    rw [← UInt16.toNat_inj, he, he] at hij
    rw [mem_range] at hi hj
    omega
  · intro n
    rw [← UInt16.toNat_inj, he (n + 65535), he]
    omega

end PacketIDFactory

def searchPacketID (table : InflightTable) : Nat → PacketIDFactory → PacketID × PacketIDFactory
  | 0, factory => (0, factory)
  | attempts + 1, factory =>
    let factory := factory.nextPacketID
    let packetID := factory.id.toNat
    if packetID = 0 ∨ (table.get packetID).isSome then searchPacketID table attempts factory
    else (packetID, factory)

/-- `NextPacketID`; a missing inflight store answers like the empty table. -/
def nextPacketID (table : InflightTable) (factory : PacketIDFactory) : PacketID × PacketIDFactory :=
  searchPacketID table 65535 factory

section NextPacketID

variable {table : InflightTable}

theorem searchPacketID_cases (attempts : Nat) (factory : PacketIDFactory) :
    let pid := (searchPacketID table attempts factory).1
    pid ≠ 0 ∧ pid ≤ 65535 ∧ table.get pid = none ∨
      pid = 0 ∧ ∀ k < attempts, (table.get ((factory.id.toNat + k) % 65535 + 1)).isSome := by
  induction attempts generalizing factory with
  | zero => exact .inr ⟨rfl, nofun⟩
  | succ attempts ih =>
    have hv := factory.nextPacketID_toNat
    simp only [searchPacketID]
    split
    · next skipped =>
      have ht : (table.get factory.nextPacketID.id.toNat).isSome := skipped.resolve_left (by omega)
      refine (ih factory.nextPacketID).imp_right fun ⟨hz, hf⟩ => ⟨hz, fun k hi => ?_⟩
      cases k with
      | zero => rwa [hv] at ht
      | succ k =>
        -- attempt `k + 1` from this state is attempt `k` from the next one
        have hs : (factory.id.toNat + (k + 1)) % 65535 =
            (factory.nextPacketID.id.toNat + k) % 65535 := by omega
        rw [hs]
        exact hf k (by omega)
    · next free =>
      rw [not_or, Option.not_isSome_iff_eq_none] at free
      exact .inl ⟨free.1, Nat.le_of_lt_succ factory.nextPacketID.id.toNat_lt, free.2⟩

/-- From any state of the counter the attempts of `NextPacketID` reach every identifier. -/
theorem nextPacketID_free (table : InflightTable) (factory : PacketIDFactory) :
    let packetID := (nextPacketID table factory).1
    packetID ≠ 0 ∧ packetID ≤ 65535 ∧ table.get packetID = none ∨
      packetID = 0 ∧ ∀ id : Nat, 0 < id → id ≤ 65535 → (table.get id).isSome := by
  refine (searchPacketID_cases 65535 factory).imp_right fun ⟨hz, hf⟩ => ⟨hz, ?_⟩
  intro id hp hs
  have hb := factory.id.toNat_lt
  have hr := hf ((id + 131069 - factory.id.toNat) % 65535) (Nat.mod_lt _ (by decide))
  have hv : (factory.id.toNat + (id + 131069 - factory.id.toNat) % 65535) % 65535 + 1 = id := by
    omega
  rwa [hv] at hr

end NextPacketID

end SkyTree.Client
