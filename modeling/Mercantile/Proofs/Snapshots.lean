import Mercantile.Proofs.History
import Mercantile.Proofs.Loading
import Mercantile.Proofs.Storage
import Mercantile.Proofs.Texts

/-!
Snapshots that survive being stored. The document of a world is plain (`PlainCoded`), so its text is decoded to
what the document is decoded to, and that is the world wherever the text of the time in its clock reads back. It
does in every world that was decoded, from whatever text (`World.datable_of_decode?`). Hence what a database keeps
after a write that was committed is read as the world that was written (`snapshot_survives`).
-/

namespace Mercantile

/-- The text of a value, which is what a column of a table keeps. -/
def toText {α : Type} [Coded α] (a : α) : String := (encode a).print

def ofText? {α : Type} [Coded α] (s : String) : Option α := (Json.parse? s).bind decode?

/-- A type of values whose documents are plain. -/
class PlainCoded (α : Type) [Coded α] : Prop where
  plain (a : α) : (encode a).Plain

attribute [simp] PlainCoded.plain

/-- What the text of a value is decoded to is what its document is decoded to. -/
theorem ofText?_toText {α : Type} [Coded α] [PlainCoded α] (a : α) :
    ofText? (toText a) = decode? (α := α) (encode a) := by
  rw [ofText?, toText, Json.parse?_print (PlainCoded.plain a), Option.bind_some]

namespace Coded

theorem plain_of_lt {n : Nat} (h : n < UInt64.size) : (Json.int n).Plain :=
  .int (Int.le_trans (by decide) (Int.natCast_nonneg n)) (Int.ofNat_lt.2 h)

instance : PlainCoded UInt64 := ⟨fun n => plain_of_lt n.toNat_lt⟩

instance : PlainCoded UInt32 := ⟨fun n => plain_of_lt (Nat.lt_trans n.toNat_lt (by decide))⟩

instance : PlainCoded UInt8 := ⟨fun n => plain_of_lt (Nat.lt_trans n.toNat_lt (by decide))⟩

instance : PlainCoded Int64 where
  plain n := .int n.le_toInt (Int.lt_of_le_of_lt n.toInt_le (by decide))

instance : PlainCoded Bool := ⟨.bool⟩

instance : PlainCoded String := ⟨.str⟩

instance : PlainCoded Timestamp := ⟨fun t => .str t.toText⟩

instance {kind : EntityKind} : PlainCoded (Id kind) := ⟨fun i => PlainCoded.plain i.val⟩

instance {α : Type} [Coded α] [PlainCoded α] : PlainCoded (List α) where
  plain as := by
    refine .arr fun j hj => ?_
    obtain ⟨a, -, rfl⟩ := List.mem_map.1 hj
    exact PlainCoded.plain a

instance {α : Type} [Coded α] [PlainCoded α] : PlainCoded (Option α) where
  plain
    | none => .null
    | some a => PlainCoded.plain a

instance : PlainCoded BuildingStatus := ⟨fun s => .str s.name⟩

instance : PlainCoded JobState := ⟨fun s => .str s.name⟩

instance : PlainCoded OrderSide := ⟨fun s => .str s.name⟩

instance : PlainCoded OrderStatus := ⟨fun s => .str s.name⟩

instance : PlainCoded ShipmentStatus := ⟨fun s => .str s.name⟩

instance : PlainCoded ContractStatus := ⟨fun s => .str s.name⟩

instance : PlainCoded Clock := ⟨fun _ => .obj (by simp)⟩

instance : PlainCoded Region := ⟨fun _ => .obj (by simp)⟩

instance : PlainCoded Item := ⟨fun _ => .obj (by simp)⟩

instance : PlainCoded Company := ⟨fun _ => .obj (by simp)⟩

instance : PlainCoded Building := ⟨fun _ => .obj (by simp)⟩

instance : PlainCoded RecipeInput := ⟨fun _ => .obj (by simp)⟩

instance : PlainCoded Recipe := ⟨fun _ => .obj (by simp)⟩

instance : PlainCoded Job := ⟨fun _ => .obj (by simp)⟩

instance : PlainCoded Order := ⟨fun _ => .obj (by simp)⟩

instance : PlainCoded Trade := ⟨fun _ => .obj (by simp)⟩

instance : PlainCoded Shipment := ⟨fun _ => .obj (by simp)⟩

instance : PlainCoded Contract := ⟨fun _ => .obj (by simp)⟩

instance : PlainCoded Allocation := ⟨fun _ => .obj (by simp)⟩

instance : PlainCoded Balance := ⟨fun _ => .obj (by simp)⟩

instance : PlainCoded Inventory := ⟨fun inv => PlainCoded.plain inv.balances⟩

instance : PlainCoded World := ⟨fun _ => .obj (by simp)⟩

end Coded

theorem Timestamp.valid_of_decode? {j : Json} {t : Timestamp} (h : decode? j = some t) : t.Valid := by
  cases j with
  | str s => exact valid_of_parse? h
  | _ => cases h

/-- What is there of an optional field was decoded. -/
theorem exists_of_optional {α : Type} [Coded α] {j : Option Json} {o : Option α} (h : optional j = some o) {a : α}
    (ha : a ∈ o) : ∃ k, decode? k = some a := by
  cases ha
  unfold optional at h
  split at h
  · cases h
  · cases h
  · obtain ⟨b, hb, hab⟩ := Option.map_eq_some_iff.1 h
    exact ⟨_, hb.trans hab⟩

/-- The time in a clock that was decoded was read from a text. -/
theorem Clock.datable_of_decode? {j : Json} {c : Clock} (h : decode? j = some c) : c.Datable := by
  obtain ⟨fields, -, h⟩ := Option.bind_eq_some_iff.1 h
  split at h
  · simp only [Option.bind_eq_bind, Option.bind_eq_some_iff, Option.pure_def, Option.some.injEq] at h
    obtain ⟨tick, -, version, -, advanced, hadvanced, rfl⟩ := h
    intro t ht
    obtain ⟨k, hk⟩ := exists_of_optional hadvanced ht
    exact Timestamp.valid_of_decode? hk
  · cases h

theorem World.datable_of_decode? {j : Json} {w : World} (h : decode? j = some w) : w.clock.Datable := by
  obtain ⟨fields, -, h⟩ := Option.bind_eq_some_iff.1 h
  split at h
  · obtain ⟨clock, hclock, h⟩ := Option.bind_eq_some_iff.1 h
    iterate 14 obtain ⟨_, -, h⟩ := Option.bind_eq_some_iff.1 h
    obtain rfl := Option.some.inj h
    obtain ⟨k, -, hk⟩ := Option.bind_eq_some_iff.1 hclock
    exact Clock.datable_of_decode? hk
  · cases h

/-- A clock is datable if the text of its time reads back. -/
theorem Clock.datable_of_parse? {c : Clock} (h : ∀ t ∈ c.lastAdvancedAt, Timestamp.parse? t.toText = some t) :
    c.Datable := fun t ht => Timestamp.valid_of_parse? (h t ht)

namespace Database

/-- The world as it is read from the text of the snapshot, which is what the table keeps. -/
def readText (db : Database) : Except StoreError World :=
  match db.world with
  | none => .error .uninitialized
  | some row =>
    match ofText? (α := World) row.snapshot.print with
    | none => .error .serialization
    | some w =>
      match w.check with
      | .ok () => .ok w
      | .error e => .error (.invalidSnapshot e)

/-- A write of a world that was committed: the first one, one that compares versions, or one with a batch. -/
inductive Writes (w : World) : Database → Database → Prop
  | init {db db' : Database} (h : db.init w = .ok db') : Writes w db db'
  | swap {db db' : Database} {expected : UInt64}
      (h : WorldStore.compareAndSwap db expected w = .ok (.committed, db')) : Writes w db db'
  | batch {db db' : Database} {expected : UInt64} {b : TickBatch} (hnext : b.next = w)
      (h : WorldStore.commitBatch db expected b = .ok (.committed, db')) : Writes w db db'

variable {db db' : Database} {w : World}

/-- Nothing is lost between a plain document and its text. -/
theorem readText_eq (h : ∀ row ∈ db.world, row.snapshot.Plain) : db.readText = db.read := by
  unfold readText read
  cases hrow : db.world with
  | none => rfl
  | some row =>
      have htext : ofText? (α := World) row.snapshot.print = decode? row.snapshot := by
        rw [ofText?, Json.parse?_print (h row hrow), Option.bind_some]
      dsimp only
      exact htext ▸ rfl

theorem Writes.holds (h : Writes w db db') : db'.Holds w := by
  cases h with
  | init h => exact (of_init h).1
  | swap h => exact (commit_ok h).1
  | batch hnext h => exact hnext ▸ (commit_ok h).1

/-- What a database holds is read, if its document stands for it and the check accepts it. -/
theorem Holds.reads (h : db.Holds w) (hcode : decode? (encode w) = some w) (hvalid : w.check = .ok ()) :
    db.read = .ok w ∧ db.readText = .ok w := by
  obtain ⟨row, hrow, hsnapshot⟩ := h
  have hplain : ∀ r ∈ db.world, r.snapshot.Plain := by
    intro r hr
    obtain rfl : row = r := Option.some.inj (hrow.symm.trans hr)
    rw [hsnapshot]
    exact PlainCoded.plain w
  have hread : db.read = .ok w := by simp only [read, hrow, hsnapshot, hcode, hvalid]
  exact ⟨hread, (readText_eq hplain).trans hread⟩

/-- Where the stored version is the expected one, a world whose counters fit is committed. -/
theorem exists_swap {row : WorldRow} {expected : UInt64} (hrow : db.world = some row)
    (hversion : row.lockVersion.toInt = expected.toNat) (hw : w.clock.Storable) :
    ∃ db', WorldStore.compareAndSwap db expected w = .ok (.committed, db') := by
  obtain ⟨next, hnext, -⟩ := exists_rowOf hw
  refine ⟨⟨some next, db.trades⟩, ?_⟩
  simp only [WorldStore.compareAndSwap, commit, hnext, column_ok.2 hversion, hrow]
  exact if_pos rfl

end Database

/-- The text of a world is decoded to that world if the text of its time reads back, and without condition so is
the text of a world that was itself decoded from a text. Hence a sound world is read after every write of it that
was committed, from the document and from its text alike; and if its counters fit their columns, there is such a
write wherever the stored version is the expected one. -/
theorem snapshot_survives :
    (∀ w : World, (∀ t ∈ w.clock.lastAdvancedAt, Timestamp.parse? t.toText = some t) →
      ofText? (toText w) = some w) ∧
    (∀ (s : String) (w : World), ofText? s = some w → ofText? (toText w) = some w) ∧
    ∀ w : World, w.check = .ok () → (∀ t ∈ w.clock.lastAdvancedAt, Timestamp.parse? t.toText = some t) →
      (∀ db db' : Database, Database.Writes w db db' → db'.read = .ok w ∧ db'.readText = .ok w) ∧
      (w.clock.Storable → ∀ (db : Database) (row : WorldRow) (expected : UInt64), db.world = some row →
        row.lockVersion.toInt = expected.toNat →
          ∃ db', WorldStore.compareAndSwap db expected w = .ok (.committed, db')) := by
  have hcode : ∀ w : World, w.clock.Datable → ofText? (toText w) = some w := fun w hw =>
    (ofText?_toText w).trans (World.decode?_encode hw)
  refine ⟨fun w hw => hcode w (Clock.datable_of_parse? hw), ?_, ?_⟩
  · intro s w h
    obtain ⟨j, -, hj⟩ := Option.bind_eq_some_iff.1 h
    exact hcode w (World.datable_of_decode? hj)
  · intro w hvalid hw
    refine ⟨fun db db' h => ?_, fun hstorable db row expected hrow hversion => ?_⟩
    · exact h.holds.reads (World.decode?_encode (Clock.datable_of_parse? hw)) hvalid
    · exact Database.exists_swap hrow hversion hstorable

/-- A world as a list of its fields, at a leap second and east of universal time. Names are written with escapes,
numbers are at the limits of words, and of the inventory one place stands twice and one is empty. -/
def listedText : String :=
  "[[4, 9, \"2024-02-29T12:59:60.5+01:00\"], [[1, \"\\u006eorth\"]], [[3, \"\\ud83d\\udc1a\"]], [], " ++
  "[[6, \"a \\\"mine\\\"\", -9223372036854775808, 0, true]], [], [], [], [], [], [], [], " ++
  "[[6, 1, 3, 2], [6, 1, 1, 0], [6, 1, 3, 5]], -1, 18446744073709551615]"

/-- The busy world is decoded from its text. The listed world is not written as it was listed, but it is the same
from both texts; and it is read from a database in which it takes the place of the busy world. -/
theorem snapshot_survives_listed : ofText? (toText busyWorld) = some busyWorld ∧
    ∃ w : World, ofText? listedText = some w ∧ toText w ≠ listedText ∧ ofText? (toText w) = some w ∧
      ∃ db db', Database.empty.init busyWorld = .ok db ∧ Database.Writes w db db' ∧
        db'.read = .ok w ∧ db'.readText = .ok w := by
  have hlisted : (ofText? (α := World) listedText).any (fun w => decide (toText w ≠ listedText ∧
      w.check = .ok () ∧ w.clock.Storable ∧
        ∀ t ∈ w.clock.lastAdvancedAt, Timestamp.parse? t.toText = some t)) = true := by decide +kernel
  obtain ⟨w, hw, hholds⟩ := (Option.any_eq_true _ _).1 hlisted
  obtain ⟨hother, hvalid, hstorable, htime⟩ := of_decide_eq_true hholds
  obtain ⟨db, hdb, row, hrow, hversion⟩ : ∃ db, Database.empty.init busyWorld = .ok db ∧
      ∃ row, db.world = some row ∧ row.lockVersion.toInt = (9 : UInt64).toNat := ⟨_, rfl, _, rfl, rfl⟩
  obtain ⟨hwritten, htext, hstored⟩ := snapshot_survives
  obtain ⟨hread, hswap⟩ := hstored w hvalid htime
  obtain ⟨db', hdb'⟩ := hswap hstorable db row 9 hrow hversion
  exact ⟨hwritten busyWorld nofun, w, hw, hother, htext listedText w hw, db, db', hdb, .swap hdb',
    hread db db' (.swap hdb')⟩

end Mercantile
