import Mathlib.Logic.Basic
import Mercantile.Simulation
import Mercantile.Store.Memory
import Mercantile.Proofs.Commands
import Mercantile.Proofs.Phases

/-!
What is worked out on a snapshot, and what its commit does to a store in memory. A plan moves the lock
version on by one for a command and by one a tick for an advance, and the tick only for an advance
(`planCommand_ok`, `planAdvanceUntil_ok`). Its commit replaces the stored world if that is still at the
lock version of the snapshot, and is refused with nothing changed if not (`Plan.commit_memory`).
-/

namespace Mercantile

variable {w w' : World}

/-- The clock is moved after the phases, by one tick and one version. -/
theorem step_clock {cfg : EngineConfig} {r : TickReport × List Trade}
    (h : (step cfg).run w = .ok r w') :
    w'.clock.lockVersion.toNat = w.clock.lockVersion.toNat + 1 ∧
      w'.clock.currentTick.toNat = w.clock.currentTick.toNat + 1 := by
  obtain ⟨tick, before, after, drift, o, t, htick, -, hphases, hclock, -, -, -, -⟩ := step_ok h
  obtain ⟨s₁, w₂, w₃, s₄, hbots, hclear, hproduction, hdelivered, hdeliveries⟩ := runPhases_ok hphases
  have hsame : t.world.clock = w.clock := by
    rw [settleContracts_frame hdeliveries, advanceShipments_frame hdelivered, runProduction_frame hproduction,
      World.retainRecentTrades, clearMarkets_frame hclear, (supplyBots_moved hbots).frame]
  obtain ⟨v, hv, rfl⟩ := moveClock_ok.1 hclock
  rw [hsame] at hv
  exact ⟨hv, htick⟩

theorem planCommand_ok {α : Type} {x : Action World α} {p : CommandPlan α} :
    planCommand x w = .ok p ↔ ∃ next version, x.run w = .ok p.answer next ∧
      version.toNat = w.clock.lockVersion.toNat + 1 ∧ p.expectedLockVersion = w.clock.lockVersion ∧
      p.next = { next with clock := { next.clock with lockVersion := version } } := by
  simp only [planCommand, Check.bind_ok, Check.pure_ok, orFail_ok, UInt64.add?_eq_some]
  constructor
  · rintro ⟨⟨answer, next⟩, hrun, version, hversion, rfl⟩
    exact ⟨next, version, Action.outcome_ok.1 hrun, hversion, rfl, rfl⟩
  · rintro ⟨next, version, hrun, hversion, hexpected, hnext⟩
    refine ⟨⟨p.answer, next⟩, Action.outcome_ok.2 hrun, version, hversion, ?_⟩
    rw [← hexpected, ← hnext]

theorem checkTicks_pos {requested : Int64} {cfg : EngineConfig} {n : Nat}
    (h : checkTicks requested cfg = .ok n) : 0 < n := by
  unfold checkTicks at h
  split at h
  · next v hv =>
    rw [checkRange, Check.bound_ok, not_or, Int64.not_lt, Int64.le_iff_toInt_le] at hv
    obtain ⟨⟨hlow, -⟩, rfl⟩ := hv
    have hone : (1 : Int64).toInt = 1 := by decide
    rw [Except.ok.injEq] at h
    omega
  · cases h

/-- Every tick that was run moved the clock. -/
theorem runTicks_clock {cfg : EngineConfig} {stop : Nat → Bool} {done ticks : Nat}
    {rs : List (TickReport × List Trade)} (h : (runTicks cfg stop done ticks).run w = .ok rs w') :
    w'.clock.lockVersion.toNat = w.clock.lockVersion.toNat + rs.length ∧
      w'.clock.currentTick.toNat = w.clock.currentTick.toNat + rs.length := by
  induction ticks generalizing done w rs with
  | zero =>
      obtain ⟨rfl, rfl⟩ := Action.pure_ok.1 h
      exact ⟨rfl, rfl⟩
  | succ ticks ih =>
      unfold runTicks at h
      split at h
      · obtain ⟨rfl, rfl⟩ := Action.pure_ok.1 h
        exact ⟨rfl, rfl⟩
      · simp only [Action.bind_ok, Action.pure_ok] at h
        obtain ⟨r, w₁, hstep, rs, _, hrest, rfl, rfl⟩ := h
        obtain ⟨hversion, htick⟩ := step_clock hstep
        obtain ⟨hversions, hticks⟩ := ih hrest
        rw [List.length_cons]
        omega

theorem runTicks_ne_nil {cfg : EngineConfig} {stop : Nat → Bool} {done ticks : Nat}
    {rs : List (TickReport × List Trade)} (hstop : stop done = false) (hticks : 0 < ticks)
    (h : (runTicks cfg stop done ticks).run w = .ok rs w') : rs ≠ [] := by
  obtain ⟨n, rfl⟩ := Nat.exists_eq_succ_of_ne_zero hticks.ne'
  simp only [runTicks, hstop, Bool.false_eq_true, if_false, Action.bind_ok, Action.pure_ok] at h
  obtain ⟨r, w₁, -, rs', _, -, rfl, -⟩ := h
  exact List.cons_ne_nil _ _

/-- A plan of ticks on top of a snapshot goes from its tick to that of the world it leads to. -/
theorem planAdvanceUntil_ok {stop : Nat → Bool} {requested : Int64} {cfg : EngineConfig}
    {now : Timestamp} {p : AdvancePlan} (hstop : stop 0 = false)
    (h : planAdvanceUntil stop w requested cfg now = .ok p) :
    p.expectedLockVersion = w.clock.lockVersion ∧ p.batch.fromTick = w.clock.currentTick ∧
      p.batch.toTick = p.batch.next.clock.currentTick ∧ p.reports ≠ [] ∧
      p.batch.next.clock.lockVersion.toNat = w.clock.lockVersion.toNat + p.reports.length ∧
      p.batch.toTick.toNat = w.clock.currentTick.toNat + p.reports.length := by
  simp only [planAdvanceUntil, Check.bind_ok, Check.pure_ok] at h
  obtain ⟨n, hn, ⟨rs, w₁⟩, hrun, rfl⟩ := h
  have hrun := Action.outcome_ok.1 hrun
  have hne : rs ≠ [] := runTicks_ne_nil hstop (checkTicks_pos hn) hrun
  obtain ⟨hversion, htick⟩ := runTicks_clock hrun
  have hsome : rs.isEmpty = false := List.isEmpty_eq_false_iff.2 hne
  simp only [hsome, Bool.false_eq_true, if_false, List.length_map, ne_eq, List.map_eq_nil_iff, true_and]
  exact ⟨hne, hversion, htick⟩

/-- What may be asked of an engine: a command, or an advance that is not stopped before its first tick. -/
inductive Request
  | command (c : Command)
  | advance (stop : Nat → Bool) (starts : stop 0 = false) (requested : Int64) (now : Timestamp)

/-- A request worked out on a snapshot. -/
inductive Plan
  | command (p : CommandPlan Unit)
  | advance (p : AdvancePlan)

namespace Plan

def expectedLockVersion : Plan → UInt64
  | .command p => p.expectedLockVersion
  | .advance p => p.expectedLockVersion

def next : Plan → World
  | .command p => p.next
  | .advance p => p.batch.next

def trades : Plan → List Trade
  | .command _ => []
  | .advance p => p.batch.trades

def isCommand : Plan → Bool
  | .command _ => true
  | .advance _ => false

def ticks : Plan → Nat
  | .command _ => 0
  | .advance p => p.reports.length

def range? : Plan → Option AdvanceResult
  | .command _ => none
  | .advance p => some ⟨p.batch.fromTick, p.batch.toTick⟩

def commit {σ : Type} [WorldStore σ] : Plan → Action (Simulation σ) Unit
  | .command p => Simulation.commitCommand p
  | .advance p => (fun _ => ()) <$> Simulation.commitPlan p

/-- A plan that was worked out on a snapshot: how far it moves the clock. -/
structure On (p : Plan) (w : World) : Prop where
  expected : p.expectedLockVersion = w.clock.lockVersion
  version : p.next.clock.lockVersion.toNat =
    w.clock.lockVersion.toNat + (if p.isCommand then 1 else 0) + p.ticks
  tick : p.next.clock.currentTick.toNat = w.clock.currentTick.toNat + p.ticks
  range : ∀ r ∈ p.range?, r.fromTick = w.clock.currentTick ∧ r.toTick = p.next.clock.currentTick
  nonempty : p.isCommand = false → 0 < p.ticks

end Plan

namespace Request

def plan (cfg : EngineConfig) (snapshot : World) : Request → Except Failure Plan
  | .command c => .command <$> planCommand (c.act cfg) snapshot
  | .advance stop _ requested now => .advance <$> planAdvanceUntil stop snapshot requested cfg now

theorem plan_on {cfg : EngineConfig} {r : Request} {p : Plan} (h : r.plan cfg w = .ok p) : p.On w := by
  cases r with
  | command c =>
      obtain ⟨q, hq, rfl⟩ := Check.map_ok.1 h
      obtain ⟨next, version, hrun, hversion, hexpected, hnext⟩ := planCommand_ok.1 hq
      have hclock : next.clock = w.clock := by rw [Command.act_frame hrun]
      refine ⟨hexpected, ?_, ?_, nofun, nofun⟩
      · rw [Plan.next, hnext]
        exact hversion
      · rw [Plan.next, hnext]
        exact congrArg (·.currentTick.toNat) hclock
  | advance stop starts requested now =>
      obtain ⟨q, hq, rfl⟩ := Check.map_ok.1 h
      obtain ⟨hexpected, hfrom, hto, hne, hversion, htick⟩ := planAdvanceUntil_ok starts hq
      refine ⟨hexpected, hversion, ?_, ?_, fun _ => List.length_pos_iff.2 hne⟩
      · rw [Plan.next, ← hto]
        exact htick
      · rintro r ⟨⟩
        exact ⟨hfrom, hto⟩

end Request

/-- What becomes of a commit on a store in memory. -/
theorem MemoryStore.accepted_commit (cfg : EngineConfig) (v : World) (history : List Trade)
    (expected : UInt64) (next : World) (trades : List Trade) :
    Simulation.accepted (⟨⟨some v, history⟩, cfg⟩ : Simulation MemoryStore) expected
        (MemoryStore.commit ⟨some v, history⟩ expected next trades) =
      if v.clock.lockVersion = expected then .ok ⟨⟨some next, history ++ trades⟩, cfg⟩
      else .error (.concurrentModification expected v.clock.lockVersion) := by
  by_cases hv : v.clock.lockVersion = expected
  · simp only [MemoryStore.commit, MemoryStore.read, Except.bind, bind, hv, if_true]
    rfl
  · simp only [MemoryStore.commit, MemoryStore.read, Except.bind, bind, hv, if_false]
    rfl

namespace Plan

variable {p : Plan}

theorem On.version_lt (h : p.On w) : w.clock.lockVersion < p.next.clock.lockVersion := by
  have hversion := h.version
  have hnonempty := h.nonempty
  rw [UInt64.lt_iff_toNat_lt]
  cases hp : p.isCommand with
  | true =>
      rw [hp, if_pos rfl] at hversion
      omega
  | false =>
      have := hnonempty hp
      omega

/-- The ticks of an advance are in order, and there is one at least. -/
theorem On.range_lt (h : p.On w) {r : AdvanceResult} (hr : r ∈ p.range?) : r.fromTick < r.toTick := by
  obtain ⟨hfrom, hto⟩ := h.range r hr
  have htick := h.tick
  have hpos : 0 < p.ticks := by
    cases p with
    | command q => cases hr
    | advance q => exact h.nonempty rfl
  rw [hfrom, hto, UInt64.lt_iff_toNat_lt]
  omega

theorem On.ticksApplied_ne_zero {q : AdvancePlan} (h : (advance q).On w) : q.ticksApplied ≠ 0 := by
  have hlt := h.range_lt (r := ⟨q.batch.fromTick, q.batch.toTick⟩) rfl
  intro hzero
  rw [UInt64.sub_eq_iff_eq_add.1 hzero, UInt64.zero_add] at hlt
  exact UInt64.lt_irrefl _ hlt

/-- A commit on a store in memory: the plan is stored if the lock version is that of its snapshot, and
nothing happens if it is not. -/
theorem On.commit_memory (h : p.On w) {s : MemoryStore} {v : World} (hstored : s.world = some v)
    (cfg : EngineConfig) :
    p.commit.run (⟨s, cfg⟩ : Simulation MemoryStore) =
      if v.clock.lockVersion = p.expectedLockVersion then
        .ok () ⟨⟨some p.next, s.history ++ p.trades⟩, cfg⟩
      else .error (.concurrentModification p.expectedLockVersion v.clock.lockVersion) ⟨s, cfg⟩ := by
  obtain ⟨world, history⟩ := s
  cases hstored
  have haccepted := MemoryStore.accepted_commit cfg v history p.expectedLockVersion p.next p.trades
  cases p with
  | command q =>
      by_cases hv : v.clock.lockVersion = q.expectedLockVersion
      · rw [expectedLockVersion, if_pos hv] at haccepted ⊢
        exact Action.transact_ok.2 (Check.bind_ok.2 ⟨_, haccepted, rfl⟩)
      · rw [expectedLockVersion, if_neg hv] at haccepted ⊢
        exact Action.transact_error.2 ⟨Check.bind_error.2 (.inl haccepted), rfl⟩
  | advance q =>
      have happlied := h.ticksApplied_ne_zero
      by_cases hv : v.clock.lockVersion = q.expectedLockVersion
      · rw [expectedLockVersion, if_pos hv] at haccepted ⊢
        refine Action.map_ok.2 ⟨⟨q.batch.fromTick, q.batch.toTick⟩, Action.transact_ok.2 ?_, rfl⟩
        rw [if_neg happlied]
        exact Check.bind_ok.2 ⟨_, haccepted, rfl⟩
      · rw [expectedLockVersion, if_neg hv] at haccepted ⊢
        refine Action.map_error.2 (Action.transact_error.2 ⟨?_, rfl⟩)
        rw [if_neg happlied]
        exact Check.bind_error.2 (.inl haccepted)

/-- A commit that fails leaves its engine as it was. -/
theorem commit_error {σ : Type} [WorldStore σ] {s t : Simulation σ} {e : Failure}
    (h : p.commit.run s = .error e t) : t = s := by
  cases p with
  | command q => exact (Action.transact_error.1 h).2
  | advance q => exact (Action.transact_error.1 (Action.map_error.1 h)).2

end Plan

section

variable {σ α β : Type} [WorldStore σ]

theorem planCommand_map (f : α → β) (x : Action World α) (w : World) :
    planCommand (f <$> x) w =
      (fun p => ⟨p.expectedLockVersion, p.next, f p.answer⟩) <$> planCommand x w := by
  simp only [planCommand, Functor.map, EStateM.map, bind, Action.outcome, Except.bind, Except.map]
  cases x w with
  | error e t => rfl
  | ok a t => cases orOverflow (w.clock.lockVersion.add? 1) Figure.lockVersion <;> rfl

theorem Simulation.commitCommand_map (f : α → β) (p : CommandPlan α) :
    (commitCommand ⟨p.expectedLockVersion, p.next, f p.answer⟩ : Action (Simulation σ) β) =
      f <$> commitCommand p := by
  funext s
  simp only [commitCommand, Functor.map, EStateM.map, Action.transact, bind, Except.bind]
  cases s.accepted p.expectedLockVersion
    (WorldStore.compareAndSwap s.store p.expectedLockVersion p.next) <;> rfl

/-- It makes no difference whether an answer is changed before the commit or after it. -/
theorem Simulation.command_map (f : α → β) (x : EngineConfig → Action World α) :
    (command fun cfg => f <$> x cfg : Action (Simulation σ) β) = f <$> command x := by
  funext s
  simp only [command, planCommand_map]
  simp only [Functor.map, EStateM.map, bind, EStateM.bind, Action.observe, Except.bind, Except.map]
  cases s.snapshot with
  | error e => rfl
  | ok w =>
      dsimp only
      cases planCommand (x s.config) w with
      | error e => rfl
      | ok p => exact congrFun (commitCommand_map f p) s

/-- Carries out a command on an engine; the identifier that some of them answer with is dropped. -/
def Command.submit : Command → Action (Simulation σ) Unit
  | .placeOrder r => (fun _ => ()) <$> Simulation.placeOrder r
  | .cancelOrder id => Simulation.cancelOrder id
  | .createContract r => (fun _ => ()) <$> Simulation.createContract r
  | .cancelContract id => Simulation.cancelContract id
  | .startJob r => (fun _ => ()) <$> Simulation.startJob r
  | .cancelJob id => Simulation.cancelJob id
  | .createShipment r => (fun _ => ()) <$> Simulation.createShipment r
  | .cancelShipment id => Simulation.cancelShipment id
  | .setAllocation a => Simulation.setAllocation a

theorem Command.submit_eq (c : Command) :
    (c.submit : Action (Simulation σ) Unit) = Simulation.command fun cfg => c.act cfg := by
  cases c with
  | placeOrder r => exact (Simulation.command_map _ _).symm
  | createContract r => exact (Simulation.command_map _ _).symm
  | startJob r => exact (Simulation.command_map _ _).symm
  | createShipment r => exact (Simulation.command_map _ _).symm
  | cancelOrder id | cancelContract id | cancelJob id | cancelShipment id | setAllocation a => rfl

/-- Carries out a request on an engine, from the reading of the world to the commit. -/
def Request.submit : Request → Action (Simulation σ) Unit
  | .command c => c.submit
  | .advance stop _ requested now => (fun _ => ()) <$> Simulation.advanceUntil stop requested now

end

end Mercantile
