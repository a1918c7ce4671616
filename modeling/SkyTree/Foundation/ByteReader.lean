import Mathlib.Tactic

/-!
# Reading and writing bytes

A reader consumes a front part of its input. It is exact for a writer when it accepts
precisely what the writer produces, with anything behind it: the equivalence serves
the round trip in one direction and the analysis of unknown input in the other.
-/

namespace SkyTree.Foundation

open List

universe u

variable {ε : Type u} {α β : Type}

theorem exceptBind_eq_ok {x : Except ε α} {next : α → Except ε β} {b : β} :
    (x >>= next) = .ok b ↔ ∃ a, x = .ok a ∧ next a = .ok b := by
  cases x with
  | error err => exact iff_of_false (fun hi => by cases hi) (by simp)
  | ok a => simp [bind, Except.bind]

def ensure (condition : Bool) (err : ε) : Except ε Unit :=
  if condition then .ok () else .error err

theorem ensure_eq_ok {condition : Bool} {err : ε} {nothing : Unit} :
    ensure condition err = .ok nothing ↔ condition = true := by
  cases condition <;> simp [ensure]

def writeAll (write : α → Except ε (List UInt8)) : List α → Except ε (List UInt8)
  | [] => .ok []
  | item :: rest => do
      let bytes ← write item
      let more ← writeAll write rest
      return bytes ++ more

theorem writeAll_eq_ok {write : α → Except ε (List UInt8)} {valid : α → Prop}
    {bytesOf : α → List UInt8} {items : List α} {bytes : List UInt8}
    (exact : ∀ item ∈ items, ∀ bytes, write item = .ok bytes ↔ valid item ∧ bytes = bytesOf item) :
    writeAll write items = .ok bytes ↔
      (∀ item ∈ items, valid item) ∧ bytes = items.flatMap bytesOf := by
  induction items generalizing bytes with
  | nil => simp [writeAll, eq_comm]
  | cons item items ih =>
    obtain ⟨first, ho⟩ := forall_mem_cons.mp exact
    simp only [writeAll, exceptBind_eq_ok, ih ho, first, forall_mem_cons, flatMap_cons]
    constructor
    · rintro ⟨_, ⟨hh, rfl⟩, _, ⟨ht, rfl⟩, he⟩
      exact ⟨⟨hh, ht⟩, (Except.ok.inj he).symm⟩
    · rintro ⟨⟨hh, ht⟩, rfl⟩
      exact ⟨_, ⟨hh, rfl⟩, _, ⟨ht, rfl⟩, rfl⟩

/-- A reader returns a value and the input it leaves. -/
abbrev Reader (ε : Type u) := StateT (List UInt8) (Except ε)

namespace Reader

variable {inp rest : List UInt8}

theorem bind_eq_ok {reader : Reader ε α} {next : α → Reader ε β} {b : β} :
    (reader >>= next) inp = .ok (b, rest) ↔
      ∃ a mid, reader inp = .ok (a, mid) ∧ next a mid = .ok (b, rest) := by
  have hu : (reader >>= next) inp = (reader inp >>= fun out => next out.1 out.2) := rfl
  rw [hu, exceptBind_eq_ok]
  exact ⟨fun ⟨⟨a, mid⟩, hr, rest⟩ => ⟨a, mid, hr, rest⟩,
    fun ⟨a, mid, hr, rest⟩ => ⟨(a, mid), hr, rest⟩⟩

theorem pure_eq_ok {a b : α} : (pure a : Reader ε α) inp = .ok (b, rest) ↔ b = a ∧ rest = inp := by
  have hu : (pure a : Reader ε α) inp = .ok (a, inp) := rfl
  rw [hu]
  simp [eq_comm]

theorem lift_eq_ok {x : Except ε α} {a : α} :
    (liftM x : Reader ε α) inp = .ok (a, rest) ↔ x = .ok a ∧ rest = inp := by
  have hu : (liftM x : Reader ε α) inp = (x >>= fun a => .ok (a, inp)) := rfl
  rw [hu, exceptBind_eq_ok]
  simp [eq_comm]

def next (err : ε) : Reader ε UInt8
  | [] => .error err
  | byte :: rest => .ok (byte, rest)

theorem next_eq_ok {err : ε} {byte : UInt8} :
    next err inp = .ok (byte, rest) ↔ inp = byte :: rest := by
  cases inp with
  | nil | cons first inp => simp [next]

def take (err : ε) (count : Nat) : Reader ε (List UInt8) := fun input =>
  if count ≤ input.length then .ok (input.take count, input.drop count) else .error err

theorem take_eq_ok {err : ε} {count : Nat} {bytes : List UInt8} :
    take err count inp = .ok (bytes, rest) ↔ bytes.length = count ∧ inp = bytes ++ rest := by
  rw [take]
  split
  · case isTrue he =>
      simp only [Except.ok.injEq, Prod.mk.injEq]
      constructor
      · rintro ⟨rfl, rfl⟩
        exact ⟨length_take_of_le he, (take_append_drop count inp).symm⟩
      · rintro ⟨rfl, rfl⟩
        exact ⟨take_left, drop_left⟩
  · case isFalse hs =>
      refine iff_of_false (fun hi => by cases hi) ?_
      rintro ⟨rfl, rfl⟩
      exact hs (by simp)

def remainder : Reader ε (List UInt8) := fun input => .ok (input, [])

theorem remainder_eq_ok {bytes : List UInt8} :
    (remainder : Reader ε (List UInt8)) inp = .ok (bytes, rest) ↔ inp = bytes ∧ rest = [] := by
  simp [remainder, eq_comm]

def atEnd : Reader ε Bool := fun input => .ok (input.isEmpty, input)

theorem atEnd_eq_ok {ended : Bool} :
    (atEnd : Reader ε Bool) inp = .ok (ended, rest) ↔ ended = inp.isEmpty ∧ rest = inp := by
  simp [atEnd, eq_comm]

def optional (present : Bool) (absent : α) (reader : Reader ε α) : Reader ε α :=
  if present then reader else pure absent

theorem optional_eq_ok {present : Bool} {absent a : α} {reader : Reader ε α} :
    optional present absent reader inp = .ok (a, rest) ↔
      present = true ∧ reader inp = .ok (a, rest) ∨ present = false ∧ a = absent ∧ rest = inp := by
  cases present with
  | false => simp [optional, pure_eq_ok]
  | true => simp [optional]

def mapError {ε' : Type u} (translate : ε → ε') (reader : Reader ε α) : Reader ε' α := fun input =>
  (reader input).mapError translate

theorem exceptMapError_eq_ok {ε' : Type u} {translate : ε → ε'} {x : Except ε α} {a : α} :
    x.mapError translate = .ok a ↔ x = .ok a := by
  cases x <;> simp [Except.mapError]

def Exact (reader : Reader ε α) (valid : α → Prop) (bytes : α → List UInt8) : Prop :=
  ∀ input a rest, reader input = .ok (a, rest) ↔ valid a ∧ input = bytes a ++ rest

theorem optional_exact {reader : Reader ε α} {valid : α → Prop} {bytes : α → List UInt8}
    (exact : reader.Exact valid bytes) (present : Bool) (absent : α) :
    (optional present absent reader).Exact
      (fun a => (present = true → valid a) ∧ (present = false → a = absent))
      (fun a => if present then bytes a else []) := by
  intro inp a rest
  cases present with
  | false =>
    rw [optional_eq_ok]
    simp [eq_comm]
  | true =>
    rw [optional_eq_ok, exact]
    simp

/-! ## Repetition -/

section Repetition

variable {σ : Type}

/-- Repeat a step until the input is empty; `fuel` bounds the number of steps. -/
def untilEmpty (step : σ → Reader ε σ) : Nat → σ → List UInt8 → Except ε σ
  | 0, s, _ => .ok s
  | _ + 1, s, [] => .ok s
  | fuel + 1, s, byte :: input =>
    match step s (byte :: input) with
    | .error err => .error err
    | .ok (next, rest) => untilEmpty step fuel next rest

/-- Steps one after another, with the bytes they read. -/
inductive Chain (relation : σ → List UInt8 → σ → Prop) : σ → List UInt8 → σ → Prop where
  | nil {s : σ} : Chain relation s [] s
  | cons {s middle last : σ} {bytes more : List UInt8} :
      relation s bytes middle → Chain relation middle more last →
      Chain relation s (bytes ++ more) last

variable {rel : σ → List UInt8 → σ → Prop} {s last : σ}

theorem Chain.nil_iff (hp : ∀ s bytes next, rel s bytes next → bytes ≠ []) :
    Chain rel s [] last ↔ last = s := by
  constructor
  · intro hc
    generalize hn : ([] : List UInt8) = inp at hc
    cases hc with
    | nil => rfl
    | cons ht _ =>
      exact absurd (append_eq_nil_iff.mp hn.symm).1 (hp _ _ _ ht)
  · rintro rfl
    exact .nil

variable {inp : List UInt8}

theorem untilEmpty_eq_ok {step : σ → Reader ε σ}
    (ha : ∀ s inp next rest, step s inp = .ok (next, rest) ↔
      ∃ bytes, rel s bytes next ∧ inp = bytes ++ rest)
    (hp : ∀ s bytes next, rel s bytes next → bytes ≠ []) {fuel : Nat}
    (he : inp.length ≤ fuel) :
    untilEmpty step fuel s inp = .ok last ↔ Chain rel s inp last := by
  induction fuel generalizing s inp with
  | zero =>
    obtain rfl : inp = [] := length_eq_zero_iff.mp (Nat.le_zero.mp he)
    rw [Chain.nil_iff hp, untilEmpty, Except.ok.injEq, eq_comm]
  | succ fuel ih =>
    cases inp with
    | nil => rw [Chain.nil_iff hp, untilEmpty, Except.ok.injEq, eq_comm]
    | cons byte inp =>
      have hs : ∀ {next rest bytes}, rel s bytes next →
          byte :: inp = bytes ++ rest → rest.length ≤ fuel := by
        intro next rest bytes ht split
        have consumed := length_pos_iff.mpr (hp _ _ _ ht)
        have hl := congrArg List.length split
        simp only [length_cons, length_append] at hl he
        omega
      rw [untilEmpty]
      constructor
      · intro hd
        split at hd
        · cases hd
        · case h_2 next rest stepped =>
            obtain ⟨bytes, ht, split⟩ := (ha _ _ _ _).mp stepped
            rw [split]
            exact .cons ht ((ih (hs ht split)).mp hd)
      · intro hc
        generalize hw : byte :: inp = all at hc
        cases hc with
        | nil => cases hw
        | @cons s mid last bytes more ht rest =>
          have stepped := (ha s (byte :: inp) mid more).mpr ⟨bytes, ht, hw⟩
          rw [← hw, stepped]
          exact (ih (hs ht hw)).mpr rest

def Appends (valid : α → Prop) (bytes : α → List UInt8) (before : List α) (read : List UInt8)
    (after : List α) : Prop :=
  ∃ a, valid a ∧ after = before ++ [a] ∧ read = bytes a

theorem chain_appends_iff {valid : α → Prop} {bytes : α → List UInt8} {before last : List α} :
    Chain (Appends valid bytes) before inp last ↔
      ∃ items, (∀ a ∈ items, valid a) ∧ inp = items.flatMap bytes ∧ last = before ++ items := by
  constructor
  · intro hc
    induction hc with
    | nil => exact ⟨[], by simp, rfl, (append_nil _).symm⟩
    | cons hs _ ih =>
      obtain ⟨a, ok, rfl, rfl⟩ := hs
      obtain ⟨items, ho, rfl, rfl⟩ := ih
      exact ⟨a :: items, forall_mem_cons.mpr ⟨ok, ho⟩, rfl, append_assoc _ _ _⟩
  · rintro ⟨items, allOk, rfl, rfl⟩
    induction items generalizing before with
    | nil =>
      rw [append_nil]
      exact .nil
    | cons a items ih =>
      obtain ⟨ok, ho⟩ := forall_mem_cons.mp allOk
      rw [← singleton_append, ← append_assoc]
      exact .cons ⟨a, ok, rfl, rfl⟩ (ih ho)

def many (item : Reader ε α) : Reader ε (List α) := fun input =>
  match untilEmpty (fun items => do return items ++ [← item]) input.length [] input with
  | .error err => .error err
  | .ok items => .ok (items, [])

theorem many_eq_ok {item : Reader ε α} {valid : α → Prop} {bytes : α → List UInt8}
    (exact : item.Exact valid bytes) (hp : ∀ a, bytes a ≠ []) {items : List α}
    {rest : List UInt8} :
    many item inp = .ok (items, rest) ↔
      (∀ a ∈ items, valid a) ∧ inp = items.flatMap bytes ∧ rest = [] := by
  have hr : untilEmpty (fun items => do return items ++ [← item]) inp.length [] inp =
      .ok items ↔ Chain (Appends valid bytes) [] inp items := by
    refine untilEmpty_eq_ok ?_ ?_ le_rfl
    · intro before inp after rest
      simp only [bind_eq_ok, pure_eq_ok, exact _ _ _, Appends]
      constructor
      · rintro ⟨a, _, ⟨ok, rfl⟩, rfl, rfl⟩
        exact ⟨_, ⟨a, ok, rfl, rfl⟩, rfl⟩
      · rintro ⟨_, ⟨a, ok, rfl, rfl⟩, rfl⟩
        exact ⟨a, _, ⟨ok, rfl⟩, rfl, rfl⟩
    · rintro _ _ _ ⟨a, -, -, rfl⟩
      exact hp a
  have hw : many item inp = .ok (items, rest) ↔
      untilEmpty (fun items => do return items ++ [← item]) inp.length [] inp = .ok items ∧
        rest = [] := by
    rw [many]
    cases untilEmpty (fun items => do return items ++ [← item]) inp.length [] inp <;> simp [eq_comm]
  rw [hw, hr, chain_appends_iff]
  constructor
  · rintro ⟨⟨items, allOk, rfl, rfl⟩, rfl⟩
    exact ⟨allOk, rfl, rfl⟩
  · rintro ⟨allOk, rfl, rfl⟩
    exact ⟨⟨items, allOk, rfl, rfl⟩, rfl⟩

end Repetition

end Reader

end SkyTree.Foundation
