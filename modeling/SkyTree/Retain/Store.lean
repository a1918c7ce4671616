import SkyTree.Foundation.OrderedKeys
import SkyTree.Foundation.OrderedLog
import SkyTree.Retain.Message
import SkyTree.Subscription.TopicFilter

/-!
# The retained-message store

Retained messages are fields of one hash, the topic being the field. Badger has no
hashes: it keeps every field under the concatenation of the hash key and the field
and lists a hash by iterating over the keys that start with the hash key. The
listing reports those whole keys, so what the store calls a topic there is the
topic with the hash key in front.
-/

namespace SkyTree.Retain

open Foundation Subscription List OrderedLog

universe u v

/-! ## Hash stores -/

structure HashStore (Store : Type u) (Data : Type v) where
  empty : Store
  hSet : Store → String → String → Data → Store
  hGet : Store → String → String → Option Data
  hDel : Store → String → List String → Store
  hGetAll : Store → String → List (String × Data)

/-- What the store guarantees for the hash `key`; a listing names the field `field`
as `listed field`. -/
structure HashStore.Lawful {Store : Type u} {Data : Type v} (hash : HashStore Store Data)
    (key : String) (listed : String → String) : Prop where
  hGet_empty : ∀ field, hash.hGet hash.empty key field = none
  hGet_hSet_self : ∀ s field data, hash.hGet (hash.hSet s key field data) key field = some data
  hGet_hSet_of_ne : ∀ s {field other} data, other ≠ field →
    hash.hGet (hash.hSet s key field data) key other = hash.hGet s key other
  hGet_hDel_of_mem : ∀ s {fields field}, field ∈ fields →
    hash.hGet (hash.hDel s key fields) key field = none
  hGet_hDel_of_not_mem : ∀ s {fields field}, field ∉ fields →
    hash.hGet (hash.hDel s key fields) key field = hash.hGet s key field
  mem_hGetAll : ∀ s name data, (name, data) ∈ hash.hGetAll s key ↔
    ∃ field, name = listed field ∧ hash.hGet s key field = some data
  nodup_hGetAll : ∀ s, ((hash.hGetAll s key).map Prod.fst).Nodup

/-! ## Badger -/

abbrev Badger (Data : Type v) := OrderedLog (Prod.fst : String × Data → String)

namespace Badger

variable {Data : Type v} (db : Badger Data)

def putKey (key : String) (value : Data) : Badger Data := db.insert (key, value)

def readKey (key : String) : Option Data := (db.get key).map Prod.snd

def deleteKey (key : String) : Badger Data := db.erase key

def readPrefixKey (start : String) : List (String × Data) :=
  db.scan start fun key => startsWith key start

def hSet (key field : String) (value : Data) : Badger Data :=
  db.putKey (key ++ field) value

def hGet (key field : String) : Option Data := db.readKey (key ++ field)

def hDel (key : String) (fields : List String) : Badger Data :=
  fields.foldl (fun db field => db.deleteKey (key ++ field)) db

def hGetAll (key : String) : List (String × Data) := db.readPrefixKey key

theorem readKey_eq_some_iff {db : Badger Data} {key : String} {value : Data} :
    db.readKey key = some value ↔ (key, value) ∈ db := by
  simp only [readKey, Option.map_eq_some_iff, get_eq_some_iff]
  constructor
  · rintro ⟨⟨found, stored⟩, ⟨hm, rfl⟩, rfl⟩
    exact hm
  · intro hm
    exact ⟨(key, value), ⟨hm, rfl⟩, rfl⟩

theorem mem_hDel {db : Badger Data} {key : String} {fields : List String} {e : String × Data} :
    e ∈ db.hDel key fields ↔ e ∈ db ∧ ∀ field ∈ fields, e.1 ≠ key ++ field := by
  induction fields generalizing db with
  | nil => simp [hDel]
  | cons field rest ih =>
    rw [hDel, foldl_cons, ← hDel, ih, deleteKey, mem_erase]
    simp [and_assoc]

theorem startsWith_iff {text lead : String} :
    startsWith text lead = true ↔ lead.toList <+: text.toList :=
  isPrefixOf_iff_prefix

theorem readPrefixKey_eq_filter (db : Badger Data) (start : String) :
    db.readPrefixKey start = db.entries.filter fun e => startsWith e.1 start := by
  refine db.scan_eq_filter (fun key begins => ?_) (fun key bound ha hb begins => ?_)
  · rw [← not_lt, String.lt_iff_toList_lt]
    exact not_lt_of_begins (startsWith_iff.mp begins)
  · rw [← not_lt, String.lt_iff_toList_lt] at ha hb
    exact startsWith_iff.mpr (begins_of_between (startsWith_iff.mp begins) ha hb)

theorem startsWith_iff_exists_append {text lead : String} :
    startsWith text lead = true ↔ ∃ rest, text = lead ++ rest := by
  rw [startsWith_iff]
  constructor
  · rintro ⟨rest, hj⟩
    refine ⟨String.ofList rest, String.toList_inj.mp ?_⟩
    rw [String.toList_append, String.toList_ofList, hj]
  · rintro ⟨rest, rfl⟩
    rw [String.toList_append]
    exact prefix_append _ _

theorem append_right_injective (key : String) : Function.Injective (key ++ ·) := by
  intro first second he
  have hc := congrArg String.toList he
  simp only [String.toList_append] at hc
  exact String.toList_inj.mp (append_cancel_left hc)

end Badger

def badgerHash (Data : Type v) : HashStore (Badger Data) Data where
  empty := .empty
  hSet := Badger.hSet
  hGet := Badger.hGet
  hDel := Badger.hDel
  hGetAll := Badger.hGetAll

theorem badgerHash_lawful (Data : Type v) (key : String) :
    (badgerHash Data).Lawful key (key ++ ·) where
  hGet_empty field := rfl
  hGet_hSet_self s field data := by
    show (s.hSet key field data).readKey (key ++ field) = some data
    rw [Badger.readKey_eq_some_iff, Badger.hSet, Badger.putKey, mem_insert]
    exact .inl rfl
  hGet_hSet_of_ne s field o data different := by
    show (s.hSet key field data).readKey (key ++ o) = s.readKey (key ++ o)
    refine Option.ext fun value => ?_
    have apart : key ++ o ≠ key ++ field := fun same =>
      different (Badger.append_right_injective key same)
    rw [Badger.readKey_eq_some_iff, Badger.readKey_eq_some_iff, Badger.hSet, Badger.putKey,
      mem_insert]
    simp [apart]
  hGet_hDel_of_mem s fields field listed := by
    show (s.hDel key fields).readKey (key ++ field) = none
    cases found : (s.hDel key fields).readKey (key ++ field) with
    | none => rfl
    | some value =>
      rw [Badger.readKey_eq_some_iff, Badger.mem_hDel] at found
      exact absurd rfl (found.2 field listed)
  hGet_hDel_of_not_mem s fields field kept := by
    show (s.hDel key fields).readKey (key ++ field) = s.readKey (key ++ field)
    refine Option.ext fun value => ?_
    rw [Badger.readKey_eq_some_iff, Badger.readKey_eq_some_iff, Badger.mem_hDel]
    refine ⟨And.left, fun stored => ⟨stored, fun o listed same => kept ?_⟩⟩
    rwa [Badger.append_right_injective key same]
  mem_hGetAll s name data := by
    show (name, data) ∈ s.readPrefixKey key ↔ ∃ field, name = key ++ field ∧
      s.readKey (key ++ field) = some data
    rw [Badger.readPrefixKey_eq_filter, mem_filter, Badger.startsWith_iff_exists_append]
    simp only [Badger.readKey_eq_some_iff, mem_def]
    constructor
    · rintro ⟨stored, field, rfl⟩
      exact ⟨field, rfl, stored⟩
    · rintro ⟨field, rfl, stored⟩
      exact ⟨stored, field, rfl⟩
  nodup_hGetAll s := by
    show ((s.readPrefixKey key).map Prod.fst).Nodup
    rw [Badger.readPrefixKey_eq_filter]
    have distinct : (s.entries.map Prod.fst).Nodup :=
      pairwise_map.mpr (s.sorted.imp fun below => ne_of_lt below)
    exact distinct.sublist (filter_sublist.map _)

/-! ## Redis -/

abbrev Redis (Data : Type v) := Assoc (String × String) Data

namespace Redis

variable {Data : Type v} (db : Redis Data)

def hSet (key field : String) (value : Data) : Redis Data :=
  Assoc.set db (key, field) value

def hGet (key field : String) : Option Data := Assoc.lookup db (key, field)

def hDel (key : String) (fields : List String) : Redis Data :=
  db.filter fun entry => !decide (entry.1.1 = key ∧ entry.1.2 ∈ fields)

def hGetAll (key : String) : List (String × Data) :=
  (db.entries.filter fun entry => decide (entry.1.1 = key)).map fun entry => (entry.1.2, entry.2)

theorem hGet_hDel_eq_some_iff {db : Redis Data} {key field : String} {fields : List String}
    {value : Data} :
    (db.hDel key fields).hGet key field = some value ↔
      db.hGet key field = some value ∧ field ∉ fields := by
  rw [hGet, hGet, Assoc.lookup_eq_some_iff, Assoc.lookup_eq_some_iff, ← KeyedTable.mem_def, hDel,
    KeyedTable.mem_filter]
  simp [KeyedTable.mem_def]

end Redis

def redisHash (Data : Type v) : HashStore (Redis Data) Data where
  empty := .empty
  hSet := Redis.hSet
  hGet := Redis.hGet
  hDel := Redis.hDel
  hGetAll := Redis.hGetAll

theorem redisHash_lawful (Data : Type v) (key : String) : (redisHash Data).Lawful key id where
  hGet_empty field := rfl
  hGet_hSet_self s field data := Assoc.lookup_set_self s (key, field) data
  hGet_hSet_of_ne s field o data different :=
    Assoc.lookup_set_of_ne s data fun same => different (Prod.mk.inj same).2
  hGet_hDel_of_mem s fields field listed := by
    refine Option.eq_none_iff_forall_ne_some.mpr fun value found => ?_
    exact (Redis.hGet_hDel_eq_some_iff.mp found).2 listed
  hGet_hDel_of_not_mem s fields field kept := by
    refine Option.ext fun value => ?_
    exact Redis.hGet_hDel_eq_some_iff.trans (and_iff_left kept)
  mem_hGetAll s name data := by
    show (name, data) ∈ Redis.hGetAll s key ↔ ∃ field, name = field ∧ s.hGet key field = some data
    simp only [Redis.hGetAll, Redis.hGet, Assoc.lookup_eq_some_iff, mem_map, mem_filter,
      decide_eq_true_eq, Prod.mk.injEq, exists_eq_left']
    constructor
    · rintro ⟨⟨⟨owner, field⟩, value⟩, ⟨stored, rfl⟩, rfl, rfl⟩
      exact stored
    · intro stored
      exact ⟨((key, name), data), ⟨stored, rfl⟩, rfl, rfl⟩
  nodup_hGetAll s := by
    show ((Redis.hGetAll s key).map Prod.fst).Nodup
    rw [Redis.hGetAll, map_map, List.Nodup, pairwise_map]
    have distinct : s.entries.Pairwise fun first second => first.1 ≠ second.1 :=
      pairwise_map.mp s.distinct
    refine (distinct.filter _).imp_of_mem ?_
    intro first second firstIn secondIn apart same
    have owner : first.1.1 = key := by simpa using (mem_filter.mp firstIn).2
    have ownerToo : second.1.1 = key := by simpa using (mem_filter.mp secondIn).2
    exact apart (Prod.ext (owner.trans ownerToo.symm) same)

end SkyTree.Retain
