import Mercantile.Proofs.Batches
import Mercantile.Proofs.Loading
import Mercantile.Proofs.Retention
import Mercantile.Proofs.Storage

/-!
The history of a store. Commands and advances, in any order and failed ones among them, append the trades of each
batch that is committed and nothing else (`Recorder`), with identifiers that never come twice and ticks in the range
of the batch. What the stored world remembers of it is all that the state of health counts, at every moment
(`history_exact`).
-/

namespace Mercantile

/-- What the document of a world is decoded to is that world, but for the time of the last advance. -/
theorem World.of_decode? {w v : World} (h : decode? (encode w) = some v) : ∃ t, v = w.advancedAt t := by
  rw [decode?_encode_eq, Clock.decode?_encode_eq, Option.map_map, Option.map_eq_some_iff] at h
  obtain ⟨t, -, rfl⟩ := h
  exact ⟨t, rfl⟩

/-- A store whose history can be looked at. A commit replaces the world that it holds, and a batch puts its trades
behind the history; what it holds is what is read, if anything is, but for the time of the last advance. -/
class Archive (σ : Type) extends WorldStore σ where
  Holds : σ → World → Prop
  history : σ → List Trade
  of_read {s : σ} {w v : World} : Holds s w → read s = .ok v → ∃ t, v = w.advancedAt t
  of_swap {s s' : σ} {expected : UInt64} {next : World} :
    compareAndSwap s expected next = .ok (.committed, s') → Holds s' next ∧ history s' = history s
  of_batch {s s' : σ} {expected : UInt64} {b : TickBatch} :
    commitBatch s expected b = .ok (.committed, s') → Holds s' b.next ∧ history s' = history s ++ b.trades

theorem MemoryStore.commit_ok {s s' : MemoryStore} {expected : UInt64} {next : World} {trades : List Trade}
    (h : s.commit expected next trades = .ok (.committed, s')) : s' = ⟨some next, s.history ++ trades⟩ := by
  simp only [commit, Check.bind_ok] at h
  obtain ⟨w, -, h⟩ := h
  split at h
  · cases h
    rfl
  · cases h

instance : Archive MemoryStore where
  Holds s w := s.world = some w
  history := MemoryStore.history
  of_read {s w v} hholds hread := by
    change s.read = .ok v at hread
    rw [MemoryStore.read, hholds, Except.ok.injEq] at hread
    exact ⟨w.clock.lastAdvancedAt, hread.symm⟩
  of_swap h := by
    rw [MemoryStore.commit_ok h]
    exact ⟨rfl, List.append_nil _⟩
  of_batch h := by
    rw [MemoryStore.commit_ok h]
    exact ⟨rfl, rfl⟩

namespace Database

variable {db db' : Database} {w : World}

theorem appendTrades_eq {ts ts' trades : List Trade} (h : trades.foldlM appendTrade ts = .ok ts') :
    ts' = ts ++ trades := by
  induction trades generalizing ts with
  | nil =>
      rw [List.append_nil]
      exact Check.pure_ok.1 h
  | cons t trades ih =>
      rw [List.foldlM_cons, Check.bind_ok] at h
      obtain ⟨ts₁, happend, h⟩ := h
      simp only [appendTrade, Check.bind_ok, Check.unless_ok, Check.pure_ok] at happend
      obtain ⟨-, -, -, rfl⟩ := happend
      rw [ih h, List.append_assoc, List.singleton_append]

/-- The row has the document of the world. -/
def Holds (db : Database) (w : World) : Prop := ∃ row, db.world = some row ∧ row.snapshot = encode w

instance : Archive Database where
  Holds := Holds
  history := Database.trades
  of_read {db w v} hholds hread := by
    obtain ⟨row, hrow, hsnapshot⟩ := hholds
    change db.read = .ok v at hread
    simp only [Database.read, hrow, hsnapshot] at hread
    split at hread
    · cases hread
    · next u hu =>
      split at hread
      · cases hread
        exact World.of_decode? hu
      · cases hread
  of_swap h := by
    obtain ⟨hrow, htrades⟩ := commit_ok h
    exact ⟨hrow, (appendTrades_eq htrades).trans (List.append_nil _)⟩
  of_batch h := by
    obtain ⟨hrow, htrades⟩ := commit_ok h
    exact ⟨hrow, appendTrades_eq htrades⟩

/-- The first world starts the history with the trades that it remembers. -/
theorem of_init (h : db.init w = .ok db') : db'.Holds w ∧ db'.trades = db.trades ++ w.trades := by
  simp only [init, Check.unless_ok, Check.bind_ok, Check.pure_ok, rowOf] at h
  obtain ⟨-, row, ⟨tick, -, version, -, rfl⟩, ts, hts, rfl⟩ := h
  exact ⟨⟨_, rfl, rfl⟩, appendTrades_eq hts⟩

end Database

/-- A store, and the batches that it accepted. -/
structure Recorder (σ : Type) where
  store : σ
  batches : List TickBatch

section

variable {σ τ α β : Type}

/-- The record after the answer to a commit. -/
def Recorder.noting (r : Recorder σ) (batches : List TickBatch) :
    CommitOutcome × σ → CommitOutcome × Recorder σ
  | (.committed, store) => (.committed, ⟨store, r.batches ++ batches⟩)
  | (.conflict found, store) => (.conflict found, ⟨store, r.batches⟩)

instance [WorldStore σ] : WorldStore (Recorder σ) where
  read r := WorldStore.read r.store
  compareAndSwap r expected next := r.noting [] <$> WorldStore.compareAndSwap r.store expected next
  commitBatch r expected b := r.noting [b] <$> WorldStore.commitBatch r.store expected b

theorem Recorder.noting_ok {r r' : Recorder σ} {batches : List TickBatch}
    {x : Except StoreError (CommitOutcome × σ)} : r.noting batches <$> x = .ok (.committed, r') ↔
      x = .ok (.committed, r'.store) ∧ r'.batches = r.batches ++ batches := by
  rw [Check.map_ok]
  constructor
  · rintro ⟨⟨outcome, store⟩, hx, hr⟩
    cases outcome <;> cases hr
    exact ⟨hx, rfl⟩
  · rintro ⟨hx, hbatches⟩
    refine ⟨_, hx, ?_⟩
    rw [noting, ← hbatches]

/-- An operation does to a view of the state what another does to the state, with the same answer. -/
def Action.SeenAs (φ : σ → τ) (x : Action σ α) (y : Action τ α) : Prop :=
  ∀ s, y.run (φ s) = match x.run s with
    | .ok a s' => .ok a (φ s')
    | .error e s' => .error e (φ s')

namespace Action.SeenAs

variable {φ : σ → τ}

theorem bind {x : Action σ α} {y : Action τ α} {f : α → Action σ β} {g : α → Action τ β} (hx : x.SeenAs φ y)
    (hf : ∀ a, (f a).SeenAs φ (g a)) : (x >>= f).SeenAs φ (y >>= g) := by
  intro s
  have hfirst := hx s
  simp only [EStateM.run, Bind.bind, EStateM.bind] at hfirst ⊢
  rw [hfirst]
  cases x s with
  | ok a t => exact hf a t
  | error e t => rfl

theorem map {x : Action σ α} {y : Action τ α} (f : α → β) (hx : x.SeenAs φ y) :
    (f <$> x).SeenAs φ (f <$> y) := by
  intro s
  have hrun := hx s
  simp only [EStateM.run, Functor.map, EStateM.map] at hrun ⊢
  rw [hrun]
  cases x s <;> rfl

theorem observe {f : σ → Except Failure α} {g : τ → Except Failure α} (h : ∀ s, g (φ s) = f s) :
    (Action.observe f).SeenAs φ (Action.observe g) := by
  intro s
  simp only [EStateM.run, Action.observe, h]
  cases f s <;> rfl

theorem transact {f : σ → Except Failure (α × σ)} {g : τ → Except Failure (α × τ)}
    (h : ∀ s, g (φ s) = Prod.map id φ <$> f s) : (Action.transact f).SeenAs φ (Action.transact g) := by
  intro s
  simp only [EStateM.run, Action.transact, h]
  cases f s <;> rfl

end Action.SeenAs

namespace Simulation

/-- The engine on the store without the record. -/
def bare (s : Simulation (Recorder σ)) : Simulation σ := ⟨s.store.store, s.config⟩

theorem accepted_bare (s : Simulation (Recorder σ)) (expected : UInt64) (batches : List TickBatch)
    (x : Except StoreError (CommitOutcome × σ)) :
    s.bare.accepted expected x = bare <$> s.accepted expected (s.store.noting batches <$> x) := by
  cases x with
  | error e => rfl
  | ok r =>
      obtain ⟨outcome, store⟩ := r
      cases outcome <;> rfl

variable [WorldStore σ]

theorem commitCommand_bare (p : CommandPlan α) :
    (commitCommand p : Action (Simulation (Recorder σ)) α).SeenAs bare (commitCommand p) := by
  refine .transact fun s => ?_
  simp only [map_bind, map_pure, accepted_bare s p.expectedLockVersion []]
  rw [bind_map_left]
  rfl

theorem commitPlan_bare (p : AdvancePlan) :
    (commitPlan p : Action (Simulation (Recorder σ)) AdvanceResult).SeenAs bare (commitPlan p) := by
  refine .transact fun s => ?_
  by_cases hticks : p.ticksApplied = 0
  · simp only [if_pos hticks]
    rfl
  · simp only [if_neg hticks, map_bind, map_pure, accepted_bare s p.expectedLockVersion [p.batch]]
    rw [bind_map_left]
    rfl

end Simulation

/-- What may be asked of an engine: a command, or an advance, which may be stopped at any time. -/
inductive Call
  | command (c : Command)
  | advance (stop : Nat → Bool) (requested : Int64) (now : Timestamp)

/-- What is worked out first and then done in one step does nothing when it fails. -/
theorem Action.planned_error {f : σ → Except Failure α} {g : α → σ → Except Failure (β × σ)} {s s' : σ}
    {e : Failure} (h : (observe f >>= fun a => transact (g a)).run s = .error e s') : s' = s := by
  rcases bind_error.1 h with h | ⟨a, t, h, hdone⟩
  · exact (observe_error.1 h).2
  · rw [(transact_error.1 hdone).2, (observe_ok.1 h).2]

namespace Call

variable [WorldStore σ]

def submit : Call → Action (Simulation σ) Unit
  | command c => c.submit
  | advance stop requested now => (fun _ => ()) <$> Simulation.advanceUntil stop requested now

/-- Calls one after another. -/
def run (s : Simulation σ) (calls : List Call) : Simulation σ := calls.foldl (fun s c => c.submit.after s) s

theorem submit_bare (c : Call) :
    (c.submit : Action (Simulation (Recorder σ)) Unit).SeenAs Simulation.bare c.submit := by
  cases c with
  | command c =>
      rw [submit, submit, Command.submit_eq, Command.submit_eq]
      exact .bind (.observe fun _ => rfl) Simulation.commitCommand_bare
  | advance stop requested now =>
      exact .map _ (.bind (.observe fun _ => rfl) Simulation.commitPlan_bare)

/-- A record makes no difference. -/
theorem run_bare (s : Simulation (Recorder σ)) (calls : List Call) : (run s calls).bare = run s.bare calls := by
  induction calls generalizing s with
  | nil => rfl
  | cons c calls ih =>
      have hfirst : c.submit.after s.bare = (c.submit.after s).bare := by
        rw [Action.after, submit_bare c s, Action.after]
        cases c.submit.run s <;> rfl
      rw [run, List.foldl_cons, ← run, ih, run, run, List.foldl_cons, hfirst]

/-- A call that fails leaves the engine as it was. -/
theorem submit_error {c : Call} {s s' : Simulation σ} {e : Failure} (h : c.submit.run s = .error e s') : s' = s := by
  cases c with
  | command c =>
      rw [submit, Command.submit_eq] at h
      exact Action.planned_error h
  | advance stop requested now => exact Action.planned_error (Action.map_error.1 h)

end Call

end

section

variable {σ : Type} [Archive σ] {window : UInt64} {w : World}

/-- The history is on record, with trades in the ranges of their batches, and the world in the store remembers what
is recent of it. -/
structure Recorder.Exact (r : Recorder σ) (window : UInt64) (w : World) : Prop where
  holds : Archive.Holds r.store w
  concatenated : Archive.history r.store = r.batches.flatMap (·.trades)
  remembers : w.Remembers window (Archive.history r.store)
  ranges : ∀ b ∈ r.batches, ∀ t ∈ b.trades, b.fromTick < t.tick ∧ t.tick ≤ b.toTick

namespace Recorder.Exact

variable {r r' : Recorder σ} {expected : UInt64}

theorem swap {next : World} (hr : r.Exact window w) (hnext : next.Remembers window (Archive.history r.store))
    (h : WorldStore.compareAndSwap r expected next = .ok (.committed, r')) : r'.Exact window next := by
  obtain ⟨hstore, hbatches⟩ := Recorder.noting_ok.1 h
  obtain ⟨hholds, hhistory⟩ := Archive.of_swap hstore
  rw [List.append_nil] at hbatches
  refine ⟨hholds, ?_, ?_, ?_⟩
  · rw [hhistory, hr.concatenated, hbatches]
  · rw [hhistory]
    exact hnext
  · rw [hbatches]
    exact hr.ranges

theorem batch {b : TickBatch} (hr : r.Exact window w)
    (hnext : b.next.Remembers window (Archive.history r.store ++ b.trades))
    (hrange : ∀ t ∈ b.trades, b.fromTick < t.tick ∧ t.tick ≤ b.toTick)
    (h : WorldStore.commitBatch r expected b = .ok (.committed, r')) : r'.Exact window b.next := by
  obtain ⟨hstore, hbatches⟩ := Recorder.noting_ok.1 h
  obtain ⟨hholds, hhistory⟩ := Archive.of_batch hstore
  refine ⟨hholds, ?_, ?_, ?_⟩
  · rw [hhistory, hr.concatenated, hbatches, List.flatMap_append, List.flatMap_singleton]
  · rw [hhistory]
    exact hnext
  · rw [hbatches]
    intro c hc
    rcases List.mem_append.1 hc with hc | hc
    · exact hr.ranges c hc
    · rw [List.mem_singleton.1 hc]
      exact hrange

/-- What is read remembers as much as what is held. -/
theorem of_snapshot {s : Simulation (Recorder σ)} {v : World} (hs : s.store.Exact window w)
    (h : s.snapshot = .ok v) : v.Remembers window (Archive.history s.store.store) := by
  have hread : WorldStore.read s.store.store = .ok v := by
    unfold Simulation.snapshot at h
    split at h
    · next u hu =>
      cases h
      exact hu
    · cases h
  obtain ⟨t, rfl⟩ := Archive.of_read hs.holds hread
  exact hs.remembers.congr rfl rfl (Nat.le_refl _)

end Recorder.Exact

/-- A call that is carried out leaves a history that is on record. -/
theorem Call.exact {c : Call} {s s' : Simulation (Recorder σ)}
    (hs : s.store.Exact s.config.health.tradesWindowTicks w) (h : c.submit.run s = .ok () s') :
    s'.config = s.config ∧ s.store.batches <+: s'.store.batches ∧
      ∃ w', s'.store.Exact s.config.health.tradesWindowTicks w' := by
  cases c with
  | command c =>
      rw [submit, Command.submit_eq] at h
      obtain ⟨p, _, hplan, hcommit⟩ := Action.bind_ok.1 h
      obtain ⟨hplan, rfl⟩ := Action.observe_ok.1 hplan
      obtain ⟨v, hv, hplan⟩ := Check.bind_ok.1 hplan
      obtain ⟨_, haccepted, hdone⟩ := Check.bind_ok.1 (Action.transact_ok.1 hcommit)
      obtain ⟨store, hstore, rfl⟩ := Simulation.accepted_ok.1 haccepted
      cases hdone
      refine ⟨rfl, ?_, p.next, hs.swap ((hs.of_snapshot hv).planCommand hplan) hstore⟩
      exact ⟨[], (Recorder.noting_ok.1 hstore).2.symm⟩
  | advance stop requested now =>
      obtain ⟨result, h, -⟩ := Action.map_ok.1 h
      obtain ⟨p, _, hplan, hcommit⟩ := Action.bind_ok.1 h
      obtain ⟨hplan, rfl⟩ := Action.observe_ok.1 hplan
      obtain ⟨v, hv, hplan⟩ := Check.bind_ok.1 hplan
      obtain ⟨hnext, hrange⟩ := (hs.of_snapshot hv).plan hplan
      have hcommit := Action.transact_ok.1 hcommit
      split at hcommit
      · cases hcommit
        exact ⟨rfl, List.prefix_rfl, w, hs⟩
      · obtain ⟨_, haccepted, hdone⟩ := Check.bind_ok.1 hcommit
        obtain ⟨store, hstore, rfl⟩ := Simulation.accepted_ok.1 haccepted
        cases hdone
        refine ⟨rfl, ?_, p.batch.next, hs.batch hnext hrange hstore⟩
        exact ⟨[p.batch], (Recorder.noting_ok.1 hstore).2.symm⟩

theorem Call.exact_run {s : Simulation (Recorder σ)} (hs : s.store.Exact s.config.health.tradesWindowTicks w)
    (calls : List Call) : (run s calls).config = s.config ∧ s.store.batches <+: (run s calls).store.batches ∧
      ∃ w', (run s calls).store.Exact s.config.health.tradesWindowTicks w' := by
  induction calls generalizing s w with
  | nil => exact ⟨rfl, List.prefix_rfl, w, hs⟩
  | cons c calls ih =>
      rw [run, List.foldl_cons, ← run, Action.after]
      cases hrun : c.submit.run s with
      | error e s' =>
          rw [submit_error hrun]
          exact ih hs
      | ok u s' =>
          obtain ⟨hconfig, hbatches, w', hw'⟩ := Call.exact hs hrun
          rw [← hconfig] at hw' ⊢
          obtain ⟨hconfigs, hmore, hend⟩ := ih hw'
          exact ⟨hconfigs, hbatches.trans hmore, hend⟩

/-- The engine after calls, from a store with nothing on record. -/
def recorded (store : σ) (cfg : EngineConfig) (calls : List Call) : Simulation (Recorder σ) :=
  Call.run ⟨⟨store, []⟩, cfg⟩ calls

def Simulation.history (s : Simulation (Recorder σ)) : List Trade := Archive.history s.store.store

/-- The history is what was committed, and the state of health counts it. -/
structure Simulation.Chronicled (s : Simulation (Recorder σ)) : Prop where
  concatenated : s.history = s.store.batches.flatMap (·.trades)
  numbered : (s.history.map (·.id.toNat)).Pairwise (· < ·)
  ordered : s.history.Pairwise (·.tick ≤ ·.tick)
  ranges : ∀ b ∈ s.store.batches, ∀ t ∈ b.trades, b.fromTick < t.tick ∧ t.tick ≤ b.toTick
  /-- Counted in the stored world, the recent trades are those of the whole history. -/
  counted : ∃ w, Archive.Holds s.store.store w ∧ shownTradeCount w s.config.health =
    s.history.countP (·.isWithin w.clock.currentTick s.config.health.tradesWindowTicks)
  answered : ∀ limit h, s.health limit = .ok h → h.recentTrades =
    s.history.countP (·.isWithin h.clock.currentTick s.config.health.tradesWindowTicks)

theorem Recorder.Exact.chronicled {s : Simulation (Recorder σ)}
    (hs : s.store.Exact s.config.health.tradesWindowTicks w) : s.Chronicled where
  concatenated := hs.concatenated
  numbered := hs.remembers.numbered.ascending
  ordered := hs.remembers.ordered.imp UInt64.le_iff_toNat_le.2
  ranges := hs.ranges
  counted := by
    refine ⟨w, hs.holds, ?_⟩
    rw [World.shownTradeCount_eq]
    exact hs.remembers.count
  answered := by
    intro limit h hhealth
    obtain ⟨v, hv, hhealth⟩ := Check.bind_ok.1 hhealth
    obtain ⟨report, -, hhealth⟩ := Check.bind_ok.1 hhealth
    rw [Check.pure_ok.1 hhealth, World.shownTradeCount_eq]
    exact (hs.of_snapshot hv).count

/-- From a store that holds a world without trades and has no history, whatever is asked of the engine over it: at
every moment the history is the trades of the batches that were committed, and the state of health counts of the
trades that the world remembers what it would count of the whole history. The record makes no difference to the
engine, and the history is never taken back. -/
theorem history_exact {store : σ} {w₀ : World} (hholds : Archive.Holds store w₀)
    (hempty : Archive.history store = []) (hw₀ : w₀.trades = []) (cfg : EngineConfig) (calls : List Call) :
    (recorded store cfg calls).bare = Call.run ⟨store, cfg⟩ calls ∧ (recorded store cfg calls).config = cfg ∧
      (recorded store cfg calls).Chronicled ∧
        ∀ more, (recorded store cfg calls).history <+: (recorded store cfg (calls ++ more)).history := by
  have hstart : (⟨store, []⟩ : Recorder σ).Exact cfg.health.tradesWindowTicks w₀ :=
    { holds := hholds
      concatenated := hempty
      remembers := by
        rw [hempty]
        exact .start hw₀
      ranges := nofun }
  obtain ⟨hconfig, -, w, hw⟩ := Call.exact_run (s := ⟨⟨store, []⟩, cfg⟩) hstart calls
  have hnow : (recorded store cfg calls).store.Exact (recorded store cfg calls).config.health.tradesWindowTicks w := by
    rw [recorded, hconfig]
    exact hw
  refine ⟨Call.run_bare _ calls, hconfig, hnow.chronicled, fun more => ?_⟩
  obtain ⟨-, ⟨batches, hbatches⟩, v, hv⟩ := Call.exact_run hnow more
  have hsplit : recorded store cfg (calls ++ more) = Call.run (recorded store cfg calls) more :=
    List.foldl_append
  rw [hsplit, Simulation.history, Simulation.history, hnow.concatenated, hv.concatenated, ← hbatches,
    List.flatMap_append]
  exact List.prefix_append _ _

end

/-- Settings under which the last two ticks are recent. -/
def briefConfig : EngineConfig := { busyConfig with health := ⟨2, 20⟩ }

/-- A tick with a trade, an order for what is left, an advance that is stopped at once, an order that nobody can
place, and two ticks, the first of them with a trade. -/
def busyCalls : List Call :=
  [.advance (fun _ => false) 1 ⟨0, 0⟩, .command (.placeOrder ⟨⟨7⟩, ⟨1⟩, ⟨3⟩, .buy, 9, 1⟩),
    .advance (fun _ => true) 3 ⟨0, 0⟩, .command (.placeOrder ⟨⟨99⟩, ⟨1⟩, ⟨3⟩, .buy, 9, 1⟩),
    .advance (fun _ => false) 2 ⟨0, 0⟩]

/-- In both stores the two trades of the busy world are in the history, in two batches, and one of them counts. -/
theorem history_exact_busy : ∃ db, Database.empty.init busyWorld = .ok db ∧
    (recorded (MemoryStore.ofWorld busyWorld) briefConfig busyCalls).Chronicled ∧
    (recorded db briefConfig busyCalls).Chronicled ∧
    (recorded db briefConfig busyCalls).history.map (·.tick) = [5, 6] ∧
    (recorded db briefConfig busyCalls).store.batches.length = 2 ∧
    ((recorded db briefConfig busyCalls).health none).map (·.recentTrades) = .ok 1 := by
  obtain ⟨db, hdb⟩ : ∃ db, Database.empty.init busyWorld = .ok db := ⟨_, rfl⟩
  have hnone : busyWorld.trades = [] := rfl
  have hmemory : Archive.Holds (MemoryStore.ofWorld busyWorld) busyWorld := rfl
  obtain ⟨hdatabase, htrades⟩ := Database.of_init hdb
  obtain ⟨-, -, hmemory, -⟩ := history_exact hmemory rfl hnone briefConfig busyCalls
  have hempty : Archive.history db = [] := htrades
  obtain ⟨-, -, hdatabase, -⟩ := history_exact hdatabase hempty hnone briefConfig busyCalls
  refine ⟨db, hdb, hmemory, hdatabase, ?_⟩
  cases hdb
  decide +kernel

end Mercantile
