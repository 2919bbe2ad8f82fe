import Mathlib.Data.List.Infix
import Mercantile.Store.Memory
import Mercantile.Proofs.Documents
import Mercantile.Proofs.Phases
import Mercantile.Store.Database

/-!
The two stores. A database gives the answers of a store in memory and holds the same world, with its history behind
the trades of the start, as long as the words fit into its columns, the worlds are fit to be written and no trade
is written twice (`database_mirrors_memory`). One call shows it (`Database.Mirrors.perform`), and calls in sequence
follow. What a commit is made of are statements in a transaction (`Database.transaction_commitStatements`), so a
commit that comes to nothing changes nothing.
-/

namespace Mercantile

/-- What a call answers, and the store after it: a call that fails leaves the store that was there. -/
def keeping {σ α : Type} (s : σ) : Except StoreError (α × σ) → Except StoreError α × σ
  | .ok (a, s') => (.ok a, s')
  | .error e => (.error e, s)

theorem keeping_bind {σ α β : Type} (s : σ) (x : Except StoreError β) (f : β → Except StoreError (α × σ)) :
    keeping s (x >>= f) = match x with
      | .ok b => keeping s (f b)
      | .error e => (.error e, s) := by
  cases x <;> rfl

namespace Database

/-- Statements on the tables. What one of them changed stays changed when a later one fails. -/
abbrev Statements := EStateM StoreError Database

/-- Runs statements in a transaction: nothing that they did counts unless it is committed in the end. -/
def transaction (x : Statements CommitOutcome) (db : Database) : Except StoreError CommitOutcome × Database :=
  match x.run db with
  | .ok .committed db' => (.ok .committed, db')
  | .ok (.conflict found) _ => (.ok (.conflict found), db)
  | .error e _ => (.error e, db)

/-- Replaces the row of the world if its lock version is `version`, and tells whether it was. -/
def updateRow (row : WorldRow) (version : Int64) : Statements Bool := fun db =>
  match db.world with
  | some old => if old.lockVersion = version then .ok true { db with world := some row } else .ok false db
  | none => .ok false db

def selectVersion : Statements Int64 := fun db =>
  match db.world with
  | some row => .ok row.lockVersion db
  | none => .error .uninitialized db

def insertTrade (t : Trade) : Statements Unit := fun db =>
  match appendTrade db.trades t with
  | .ok trades => .ok () { db with trades }
  | .error e => .error e db

/-- The row first, and then the trades one by one; if no row was replaced, a look at the version that is there. -/
def writeStatements (row : WorldRow) (version : Int64) (trades : List Trade) : Statements CommitOutcome := do
  if ← updateRow row version then
    trades.forM insertTrade
    return .committed
  else
    let found ← selectVersion
    return .conflict (← ofExcept (versionOf found))

/-- The statements of a commit, once there are words to be bound to them. -/
def commitStatements (expected : UInt64) (next : World) (trades : List Trade) : Statements CommitOutcome := do
  let row ← ofExcept (rowOf next)
  let version ← ofExcept (column .lockVersion expected)
  writeStatements row version trades

variable {α β : Type} {db db' : Database}

theorem Statements.bind_ok {x : Statements α} {f : α → Statements β} {a : α} (h : x.run db = .ok a db') :
    (x >>= f).run db = (f a).run db' := by
  change EStateM.bind x f db = _
  rw [EStateM.bind, show x db = .ok a db' from h]
  rfl

theorem Statements.bind_error {x : Statements α} {f : α → Statements β} {e : StoreError}
    (h : x.run db = .error e db') : (x >>= f).run db = .error e db' := by
  change EStateM.bind x f db = _
  rw [EStateM.bind, show x db = .error e db' from h]

theorem transaction_ofExcept_bind (x : Except StoreError α) (f : α → Statements CommitOutcome) (db : Database) :
    transaction (ofExcept x >>= f) db = match x with
      | .ok a => transaction (f a) db
      | .error e => (.error e, db) := by
  cases x <;> rfl

theorem run_insertTrade (t : Trade) (db : Database) : (insertTrade t).run db = match appendTrade db.trades t with
    | .ok trades => .ok () { db with trades }
    | .error e => .error e db := rfl

/-- Inserted one by one, the trades that come before a refused one are in the table when it is refused. -/
theorem run_insertTrades (trades : List Trade) (db : Database) :
    match trades.foldlM appendTrade db.trades with
    | .ok ts => (trades.forM insertTrade).run db = .ok () { db with trades := ts }
    | .error e => ∃ db', (trades.forM insertTrade).run db = .error e db' := by
  induction trades generalizing db with
  | nil => rfl
  | cons t trades ih =>
      have hinsert := run_insertTrade t db
      rw [List.foldlM_cons]
      cases happend : appendTrade db.trades t with
      | error e =>
          rw [happend] at hinsert
          exact ⟨db, Statements.bind_error hinsert⟩
      | ok ts =>
          rw [happend] at hinsert
          have hrun : ((t :: trades).forM insertTrade).run db =
              (trades.forM insertTrade).run { db with trades := ts } :=
            Statements.bind_ok hinsert
          rw [hrun]
          exact ih { db with trades := ts }

section Write

variable {row old : WorldRow} {version : Int64} (trades : List Trade)

theorem transaction_write_none (hworld : db.world = none) :
    transaction (writeStatements row version trades) db = (.error .uninitialized, db) := by
  have hupdate : (updateRow row version).run db = .ok false db := by
    simp only [EStateM.run, updateRow, hworld]
  have hselect : selectVersion.run db = .error .uninitialized db := by
    simp only [EStateM.run, selectVersion, hworld]
  unfold transaction writeStatements
  rw [Statements.bind_ok hupdate, if_neg Bool.false_ne_true, Statements.bind_error hselect]

theorem transaction_write_stale (hworld : db.world = some old) (hversion : ¬ old.lockVersion = version) :
    transaction (writeStatements row version trades) db =
      keeping db (do return (.conflict (← versionOf old.lockVersion), db)) := by
  have hupdate : (updateRow row version).run db = .ok false db := by
    simp only [EStateM.run, updateRow, hworld, hversion, if_false]
  have hselect : selectVersion.run db = .ok old.lockVersion db := by
    simp only [EStateM.run, selectVersion, hworld]
  unfold transaction writeStatements
  rw [Statements.bind_ok hupdate, if_neg Bool.false_ne_true, Statements.bind_ok hselect]
  cases versionOf old.lockVersion <;> rfl

/-- The row has been replaced when a trade is refused: only the transaction brings the old one back. -/
theorem transaction_write_current (hworld : db.world = some old) (hversion : old.lockVersion = version) :
    transaction (writeStatements row version trades) db =
      keeping db (do return (.committed, ⟨some row, ← trades.foldlM appendTrade db.trades⟩)) := by
  have hupdate : (updateRow row version).run db = .ok true { db with world := some row } := by
    simp only [EStateM.run, updateRow, hworld, hversion, if_true]
  have hinsert := run_insertTrades trades { db with world := some row }
  unfold transaction writeStatements
  rw [Statements.bind_ok hupdate, if_pos rfl, keeping_bind]
  cases hfold : trades.foldlM appendTrade db.trades with
  | ok ts =>
      rw [hfold] at hinsert
      rw [Statements.bind_ok hinsert]
      rfl
  | error e =>
      rw [hfold] at hinsert
      obtain ⟨db', hinsert⟩ := hinsert
      rw [Statements.bind_error hinsert]

end Write

/-- A commit is a transaction of its statements. -/
theorem transaction_commitStatements (db : Database) (expected : UInt64) (next : World) (trades : List Trade) :
    transaction (commitStatements expected next trades) db = keeping db (db.commit expected next trades) := by
  unfold commitStatements commit
  rw [transaction_ofExcept_bind, keeping_bind]
  cases rowOf next with
  | error e => rfl
  | ok row =>
      dsimp only
      rw [transaction_ofExcept_bind, keeping_bind]
      cases column .lockVersion expected with
      | error e => rfl
      | ok version =>
          dsimp only
          cases hworld : db.world with
          | none => exact transaction_write_none trades hworld
          | some old =>
              by_cases hversion : old.lockVersion = version
              · simp only [if_pos hversion]
                exact transaction_write_current trades hworld hversion
              · simp only [if_neg hversion]
                exact transaction_write_stale trades hworld hversion

end Database

inductive StoreCall
  | read
  | swap (expected : UInt64) (next : World)
  | batch (expected : UInt64) (batch : TickBatch)

inductive StoreReply
  | world (w : World)
  | outcome (o : CommitOutcome)
deriving DecidableEq

namespace StoreCall

variable {σ : Type} [WorldStore σ]

/-- The answer of a store to a call, and the store after it. -/
def perform (s : σ) : StoreCall → Except StoreError StoreReply × σ
  | .read => ((WorldStore.read s).map .world, s)
  | .swap expected next => (keeping s (WorldStore.compareAndSwap s expected next)).map (Except.map .outcome) id
  | .batch expected b => (keeping s (WorldStore.commitBatch s expected b)).map (Except.map .outcome) id

/-- The answers to calls in sequence, and the store after the last of them. -/
def run : σ → List StoreCall → List (Except StoreError StoreReply) × σ
  | s, [] => ([], s)
  | s, c :: cs => ((c.perform s).1 :: (run (c.perform s).2 cs).1, (run (c.perform s).2 cs).2)

/-- The trades that a call asks to append. -/
def trades : StoreCall → List Trade
  | .batch _ b => b.trades
  | _ => []

/-- The trades of the batches that were committed, where calls got answers. -/
def committedTrades (calls : List StoreCall) (answers : List (Except StoreError StoreReply)) : List Trade :=
  (calls.zip answers).flatMap fun (c, a) => if a = .ok (.outcome .committed) then c.trades else []

end StoreCall

/-- The word is no larger than a column can hold. -/
def Storable (n : UInt64) : Prop := n.toNat ≤ Int64.maxValue.toInt

instance (n : UInt64) : Decidable (Storable n) := inferInstanceAs (Decidable (_ ≤ Int64.maxValue.toInt))

def Clock.Storable (c : Clock) : Prop := Mercantile.Storable c.currentTick ∧ Mercantile.Storable c.lockVersion

instance (c : Clock) : Decidable c.Storable := inferInstanceAs (Decidable (_ ∧ _))

/-- The words of a trade; its price is one of the signed words that columns hold. -/
def Trade.words (t : Trade) : List UInt64 :=
  [t.id.val, t.tick, t.region.val, t.item.val, t.quantity, t.buyer.val, t.seller.val, t.buyOrder.val,
    t.sellOrder.val]

def Trade.Storable (t : Trade) : Prop := ∀ n ∈ t.words, Mercantile.Storable n

instance (t : Trade) : Decidable t.Storable := List.decidableBAll Mercantile.Storable t.words

def StoreCall.Storable : StoreCall → Prop
  | .read => True
  | .swap expected next => Mercantile.Storable expected ∧ next.clock.Storable
  | .batch expected b =>
      Mercantile.Storable expected ∧ b.next.clock.Storable ∧ ∀ t ∈ b.trades, t.Storable

instance : DecidablePred StoreCall.Storable
  | .read => .isTrue trivial
  | .swap _ _ => inferInstanceAs (Decidable (_ ∧ _))
  | .batch _ b => inferInstanceAs (Decidable (_ ∧ _ ∧ ∀ t ∈ b.trades, t.Storable))

namespace Database

variable {db : Database} {w : World}

theorem column_ok {c : Column} {n : UInt64} {v : Int64} : column c n = .ok v ↔ v.toInt = n.toNat := by
  rw [← Int64.ofInt?_eq_some, column]
  cases Int64.ofInt? n.toNat <;> simp

theorem exists_column {c : Column} {n : UInt64} (h : Storable n) : ∃ v, column c n = .ok v := by
  cases hword : Int64.ofInt? n.toNat with
  | some v => exact ⟨v, column_ok.2 (Int64.ofInt?_eq_some.1 hword)⟩
  | none =>
      have hmin : Int64.minValue.toInt < 0 := by decide
      unfold Storable at h
      rw [Int64.ofInt?_eq_none] at hword
      omega

theorem versionOf_ok {v : Int64} {n : UInt64} (h : v.toInt = n.toNat) : versionOf v = .ok n := by
  have hzero : (0 : Int64).toInt = 0 := rfl
  have hnonneg : ¬ v < 0 := by
    rw [Int64.lt_iff_toInt_lt, h, hzero]
    omega
  rw [versionOf, if_neg hnonneg, h, Int.toNat_natCast, UInt64.ofNat_toNat]

theorem exists_rowOf (h : w.clock.Storable) : ∃ row, rowOf w = .ok row ∧
    row.currentTick.toInt = w.clock.currentTick.toNat ∧ row.lockVersion.toInt = w.clock.lockVersion.toNat ∧
    row.snapshot = encode w := by
  obtain ⟨tick, htick⟩ := exists_column (c := .currentTick) h.1
  obtain ⟨version, hversion⟩ := exists_column (c := .lockVersion) h.2
  refine ⟨⟨tick, version, w.clock.lastAdvancedAt, encode w⟩, ?_, column_ok.1 htick, column_ok.1 hversion, rfl⟩
  simp only [rowOf, htick, hversion]
  rfl

theorem column_bind {α : Type} {c : Column} {n : UInt64} (h : Storable n) (x : Except StoreError α) :
    (column c n >>= fun _ => x) = x := by
  obtain ⟨v, hv⟩ := exists_column (c := c) h
  rw [hv]
  rfl

theorem checkTrade_ok {t : Trade} (h : t.Storable) : checkTrade t = .ok () := by
  simp only [Trade.Storable, Trade.words, List.forall_mem_cons] at h
  obtain ⟨hid, htick, hregion, hitem, hquantity, hbuyer, hseller, hbuy, hsell, -⟩ := h
  rw [checkTrade, column_bind hid, column_bind htick, column_bind hregion, column_bind hitem,
    column_bind hquantity, column_bind hbuyer, column_bind hseller, column_bind hbuy, column_bind hsell]
  rfl

theorem appendTrades_ok {ts trades : List Trade} (hstorable : ∀ t ∈ trades, t.Storable)
    (hnodup : ((ts ++ trades).map (·.id)).Nodup) : trades.foldlM appendTrade ts = .ok (ts ++ trades) := by
  induction trades generalizing ts with
  | nil => rw [List.append_nil]; rfl
  | cons t trades ih =>
      have hnew : ts.any (·.id = t.id) = false := by
        rw [List.map_append, List.nodup_append] at hnodup
        rw [List.any_eq_false]
        intro u hu hid
        exact hnodup.2.2 u.id (List.mem_map_of_mem hu) t.id List.mem_cons_self (of_decide_eq_true hid)
      have happend : appendTrade ts t = .ok (ts ++ [t]) := by
        simp only [appendTrade, checkTrade_ok (hstorable t List.mem_cons_self), hnew]
        rfl
      rw [List.foldlM_cons, happend]
      have hsplit : ts ++ t :: trades = ts ++ [t] ++ trades := by
        rw [List.append_assoc, List.singleton_append]
      rw [hsplit] at hnodup ⊢
      exact ih (fun u hu => hstorable u (List.mem_cons_of_mem _ hu)) hnodup

/-- A database that holds the world of a store in memory, and its history after the trades of a start. -/
structure Mirrors (db : Database) (start : List Trade) (s : MemoryStore) : Prop where
  /-- The stored document stands for the world, which is fit for use, and the columns agree with its clock. -/
  world : ∃ row w, db.world = some row ∧ s.world = some w ∧ decode? row.snapshot = some w ∧ w.check = .ok () ∧
    row.currentTick.toInt = w.clock.currentTick.toNat ∧ row.lockVersion.toInt = w.clock.lockVersion.toNat
  trades : db.trades = start ++ s.history

end Database

/-- The world is fit to be written, and no trade was written twice, nor was one of the start. -/
structure MemoryStore.Sound (start : List Trade) (s : MemoryStore) : Prop where
  valid : ∀ w ∈ s.world, w.check = .ok ()
  datable : ∀ w ∈ s.world, w.clock.Datable
  distinct : ((start ++ s.history).map (·.id)).Nodup

instance (start : List Trade) (s : MemoryStore) : Decidable (s.Sound start) :=
  decidable_of_iff ((∀ w ∈ s.world, w.check = .ok ()) ∧ (∀ w ∈ s.world, w.clock.Datable) ∧
      ((start ++ s.history).map (·.id)).Nodup)
    ⟨fun h => ⟨h.1, h.2.1, h.2.2⟩, fun h => ⟨h.valid, h.datable, h.distinct⟩⟩

theorem MemoryStore.commit_eq {s : MemoryStore} {w : World} (h : s.world = some w) (expected : UInt64)
    (next : World) (trades : List Trade) : s.commit expected next trades =
      if w.clock.lockVersion = expected then .ok (.committed, ⟨some next, s.history ++ trades⟩)
      else .ok (.conflict w.clock.lockVersion, s) := by
  simp only [commit, read, h]
  rfl

namespace Database

variable {db : Database} {w : World} {start : List Trade} {s : MemoryStore}

theorem Mirrors.read_eq (h : db.Mirrors start s) : db.read = s.read := by
  obtain ⟨row, w, hrow, hw, hdecode, hvalid, -, -⟩ := h.world
  simp only [read, MemoryStore.read, hrow, hw, hdecode, hvalid]

theorem Mirrors.commit (h : db.Mirrors start s) {expected : UInt64} {next : World} {trades : List Trade}
    (hexpected : Storable expected) (hclock : next.clock.Storable) (htrades : ∀ t ∈ trades, t.Storable)
    (hsound : (keeping s (s.commit expected next trades)).2.Sound start) :
    (keeping db (db.commit expected next trades)).1 = (keeping s (s.commit expected next trades)).1 ∧
      (keeping db (db.commit expected next trades)).2.Mirrors start (keeping s (s.commit expected next trades)).2 := by
  obtain ⟨old, w, hold, hw, hdecode, hvalid, htick, hversion⟩ := h.world
  obtain ⟨row, hrow, hrowTick, hrowVersion, hsnapshot⟩ := exists_rowOf hclock
  obtain ⟨v, hv⟩ := exists_column (c := .lockVersion) hexpected
  rw [MemoryStore.commit_eq hw] at hsound ⊢
  by_cases hmatch : w.clock.lockVersion = expected
  · have hcolumn : old.lockVersion = v := by
      rw [← Int64.toInt_inj, hversion, column_ok.1 hv, hmatch]
    rw [if_pos hmatch] at hsound ⊢
    have happend : trades.foldlM appendTrade db.trades = .ok (db.trades ++ trades) := by
      apply appendTrades_ok htrades
      rw [h.trades, List.append_assoc]
      exact hsound.distinct
    have hcommit : db.commit expected next trades = .ok (.committed, ⟨some row, db.trades ++ trades⟩) := by
      simp only [Database.commit, hrow, hv, hold, hcolumn, happend, bind, Except.bind, if_true]
      rfl
    rw [hcommit]
    refine ⟨rfl, ⟨row, next, rfl, rfl, ?_, hsound.valid next rfl, hrowTick, hrowVersion⟩, ?_⟩
    · rw [hsnapshot]
      exact World.decode?_encode (hsound.datable next rfl)
    · change db.trades ++ trades = start ++ (s.history ++ trades)
      rw [h.trades, List.append_assoc]
  · have hcolumn : ¬ old.lockVersion = v := by
      rw [← Int64.toInt_inj, hversion, column_ok.1 hv, Int.natCast_inj, UInt64.toNat_inj]
      exact hmatch
    rw [if_neg hmatch]
    have hcommit : db.commit expected next trades = .ok (.conflict w.clock.lockVersion, db) := by
      simp only [Database.commit, hrow, hv, hold, hcolumn, versionOf_ok hversion, bind, Except.bind, if_false]
      rfl
    rw [hcommit]
    exact ⟨rfl, h⟩

theorem exists_init (hclock : w.clock.Storable) (htrades : ∀ t ∈ w.trades, t.Storable)
    (hsound : (MemoryStore.ofWorld w).Sound w.trades) :
    ∃ db, empty.init w = .ok db ∧ db.Mirrors w.trades (MemoryStore.ofWorld w) := by
  obtain ⟨row, hrow, htick, hversion, hsnapshot⟩ := exists_rowOf hclock
  have hdistinct : (w.trades.map (·.id)).Nodup := by simpa [MemoryStore.ofWorld] using hsound.distinct
  have happend : w.trades.foldlM appendTrade [] = .ok w.trades := appendTrades_ok htrades hdistinct
  refine ⟨⟨some row, w.trades⟩, ?_, ⟨row, w, rfl, rfl, ?_, hsound.valid w rfl, htick, hversion⟩, ?_⟩
  · simp only [init, empty, hrow, happend, bind, Except.bind, Option.isSome_none]
    rfl
  · rw [hsnapshot]
    exact World.decode?_encode (hsound.datable w rfl)
  · exact (List.append_nil _).symm

theorem Mirrors.perform (h : db.Mirrors start s) {c : StoreCall} (hc : c.Storable)
    (hsound : (c.perform s).2.Sound start) :
    (c.perform db).1 = (c.perform s).1 ∧ (c.perform db).2.Mirrors start (c.perform s).2 := by
  cases c with
  | read => exact ⟨congrArg (Except.map StoreReply.world) h.read_eq, h⟩
  | swap expected next =>
      obtain ⟨hanswer, hmirrors⟩ := h.commit hc.1 hc.2 (List.forall_mem_nil _) hsound
      exact ⟨congrArg (Except.map StoreReply.outcome) hanswer, hmirrors⟩
  | batch expected b =>
      obtain ⟨hanswer, hmirrors⟩ := h.commit hc.1 hc.2.1 hc.2.2 hsound
      exact ⟨congrArg (Except.map StoreReply.outcome) hanswer, hmirrors⟩

theorem Mirrors.run {calls : List StoreCall} (h : db.Mirrors start s) (hcalls : ∀ c ∈ calls, c.Storable)
    (hsound : ∀ done, done <+: calls → (StoreCall.run s done).2.Sound start) :
    (StoreCall.run db calls).1 = (StoreCall.run s calls).1 ∧
      (StoreCall.run db calls).2.Mirrors start (StoreCall.run s calls).2 := by
  induction calls generalizing db s with
  | nil => exact ⟨rfl, h⟩
  | cons c calls ih =>
      have hfirst : (c.perform s).2.Sound start := hsound [c] (List.prefix_append [c] calls)
      obtain ⟨hanswer, hmirrors⟩ := h.perform (hcalls c List.mem_cons_self) hfirst
      obtain ⟨hanswers, hafter⟩ := ih hmirrors (fun d hd => hcalls d (List.mem_cons_of_mem _ hd))
        fun done hdone => hsound (c :: done) ((List.prefix_cons_inj c).2 hdone)
      exact ⟨congrArg₂ List.cons hanswer hanswers, hafter⟩

/-- A commit that is not committed leaves the database that was there. -/
theorem commit_unchanged (db : Database) (expected : UInt64) (next : World) (trades : List Trade)
    (h : (keeping db (db.commit expected next trades)).1 ≠ .ok .committed) :
    (keeping db (db.commit expected next trades)).2 = db := by
  rw [← transaction_commitStatements] at h ⊢
  unfold transaction at h ⊢
  cases hrun : (commitStatements expected next trades).run db with
  | error e db' => rfl
  | ok outcome db' =>
      cases outcome with
      | committed =>
          rw [hrun] at h
          exact absurd rfl h
      | conflict found => rfl

end Database

namespace MemoryStore

theorem history_commit (s : MemoryStore) (expected : UInt64) (next : World) (trades : List Trade) :
    (keeping s (s.commit expected next trades)).2.history =
      s.history ++ if (keeping s (s.commit expected next trades)).1 = .ok .committed then trades else [] := by
  cases hworld : s.world with
  | none =>
      have hcommit : s.commit expected next trades = .error .uninitialized := by
        simp only [commit, read, hworld]
        rfl
      rw [hcommit]
      exact (List.append_nil _).symm
  | some w =>
      rw [commit_eq hworld]
      split
      · rfl
      · exact (List.append_nil _).symm

theorem map_outcome_eq {x : Except StoreError CommitOutcome} :
    x.map StoreReply.outcome = .ok (.outcome .committed) ↔ x = .ok .committed := by
  cases x <;> simp [Except.map]

/-- The history grows by the trades of a batch that is committed, and by nothing else. -/
theorem history_perform (s : MemoryStore) (c : StoreCall) : (c.perform s).2.history =
    s.history ++ if (c.perform s).1 = .ok (.outcome .committed) then c.trades else [] := by
  cases c with
  | read =>
      change s.history = s.history ++ if s.read.map StoreReply.world = .ok (.outcome .committed) then [] else []
      rw [ite_self, List.append_nil]
  | swap expected next =>
      have hcommit := history_commit s expected next []
      rw [ite_self] at hcommit
      simp only [StoreCall.trades, ite_self]
      exact hcommit
  | batch expected b =>
      change (keeping s (s.commit expected b.next b.trades)).2.history = s.history ++
        if (keeping s (s.commit expected b.next b.trades)).1.map StoreReply.outcome = .ok (.outcome .committed)
        then b.trades else []
      simp only [map_outcome_eq]
      exact history_commit s expected b.next b.trades

theorem history_run (s : MemoryStore) (calls : List StoreCall) : (StoreCall.run s calls).2.history =
    s.history ++ StoreCall.committedTrades calls (StoreCall.run s calls).1 := by
  induction calls generalizing s with
  | nil => exact (List.append_nil _).symm
  | cons c calls ih =>
      have hrest := ih (c.perform s).2
      rw [history_perform, List.append_assoc] at hrest
      exact hrest

end MemoryStore

/-- Calls on the stores of a world that stay within the tables: the words fit into columns, and at every moment
the world in memory is fit to be written and no trade was written twice. -/
structure StoreCall.Within (w : World) (calls : List StoreCall) : Prop where
  clock : w.clock.Storable
  trades : ∀ t ∈ w.trades, t.Storable
  storable : ∀ c ∈ calls, c.Storable
  sound : ∀ done, done <+: calls → (run (MemoryStore.ofWorld w) done).2.Sound w.trades

/-- A database answers like a store in memory: it can be initialised with the same world, and after any calls the
answers have been the same, the row stands for the same world and the trades are those of the start and of the
batches that were committed. A call that does not commit changes neither table, which is what a transaction of
its statements comes to. -/
theorem database_mirrors_memory :
    (∀ (w : World) (calls : List StoreCall), StoreCall.Within w calls →
      ∃ db, Database.empty.init w = .ok db ∧ ∀ done, done <+: calls →
        (StoreCall.run db done).1 = (StoreCall.run (MemoryStore.ofWorld w) done).1 ∧
        (StoreCall.run db done).2.Mirrors w.trades (StoreCall.run (MemoryStore.ofWorld w) done).2 ∧
        (StoreCall.run db done).2.trades =
          w.trades ++ StoreCall.committedTrades done (StoreCall.run (MemoryStore.ofWorld w) done).1) ∧
    (∀ (db : Database) (c : StoreCall), (c.perform db).1 ≠ .ok (.outcome .committed) → (c.perform db).2 = db) ∧
    ∀ (db : Database) (expected : UInt64) (next : World) (trades : List Trade),
      Database.transaction (Database.commitStatements expected next trades) db =
        keeping db (db.commit expected next trades) := by
  refine ⟨?_, ?_, Database.transaction_commitStatements⟩
  · intro w calls h
    obtain ⟨db, hinit, hmirrors⟩ := Database.exists_init h.clock h.trades (h.sound [] (List.nil_prefix))
    refine ⟨db, hinit, fun done hdone => ?_⟩
    have hstorable : ∀ c ∈ done, c.Storable := fun c hc => h.storable c (hdone.subset hc)
    obtain ⟨hanswers, hafter⟩ := hmirrors.run hstorable fun earlier hearlier =>
      h.sound earlier (hearlier.trans hdone)
    refine ⟨hanswers, hafter, ?_⟩
    rw [hafter.trades, MemoryStore.history_run]
    rfl
  · intro db c h
    cases c with
    | read => rfl
    | swap expected next =>
        apply Database.commit_unchanged
        intro hcommitted
        exact h (MemoryStore.map_outcome_eq.2 hcommitted)
    | batch expected b =>
        apply Database.commit_unchanged
        intro hcommitted
        exact h (MemoryStore.map_outcome_eq.2 hcommitted)

/-- The busy world two ticks later, at the end of a leap second on a leap day, with the first trade. -/
def lateWorld : World :=
  { busyWorld with
    clock := ⟨6, 10, some ⟨951868799, 1500000000⟩⟩
    trades := [⟨⟨15⟩, 5, ⟨1⟩, ⟨3⟩, 8, 2, ⟨7⟩, ⟨6⟩, ⟨11⟩, ⟨10⟩⟩]
    nextId := 15 }

/-- A batch of two ticks, somebody who comes too late, and a look at what is stored. -/
def lateCalls : List StoreCall :=
  [.batch 9 ⟨4, 6, lateWorld, lateWorld.trades⟩, .swap 9 busyWorld, .read]

/-- On the busy world the batch is committed, the second writer learns the new version, and what is read is what
was written. -/
theorem database_mirrors_memory_late : ∃ db, Database.empty.init busyWorld = .ok db ∧
    (StoreCall.run db lateCalls).1 =
      [.ok (.outcome .committed), .ok (.outcome (.conflict 10)), .ok (.world lateWorld)] ∧
    (StoreCall.run db lateCalls).2.trades = lateWorld.trades := by
  have hsound : ∀ done ∈ lateCalls.inits,
      (StoreCall.run (MemoryStore.ofWorld busyWorld) done).2.Sound busyWorld.trades := by decide +kernel
  have hwithin : StoreCall.Within busyWorld lateCalls :=
    { clock := by decide
      trades := by decide
      storable := by decide +kernel
      sound := fun done hdone => hsound done ((List.mem_inits done lateCalls).2 hdone) }
  have hanswers : (StoreCall.run (MemoryStore.ofWorld busyWorld) lateCalls).1 =
      [.ok (.outcome .committed), .ok (.outcome (.conflict 10)), .ok (.world lateWorld)] := by decide +kernel
  obtain ⟨db, hinit, hall⟩ := database_mirrors_memory.1 busyWorld lateCalls hwithin
  obtain ⟨hsame, -, htrades⟩ := hall lateCalls List.prefix_rfl
  refine ⟨db, hinit, hsame.trans hanswers, ?_⟩
  rw [htrades, hanswers]
  rfl

end Mercantile
