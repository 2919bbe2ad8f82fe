import Mercantile.Proofs.Commits
import Mercantile.Proofs.Runs
import Mercantile.Proofs.Solvency
import Mercantile.Store.Database

/-!
What can be loaded again. The check of snapshots looks neither at the number that was handed out last nor at
the regions of jobs, and a world that it accepts may be refused after the next command or tick
(`check_not_kept`). Where identifiers have been handed out and the regions of jobs exist, the check is kept,
whatever prices, amounts and statuses there are, and so is what it does not look at (`reloadable_kept`).
-/

namespace Mercantile

namespace World

/-- The check of snapshots accepts a world, and so it should: every identifier has been handed out, and the
regions of jobs exist. -/
structure Reloadable (w : World) : Prop where
  valid : w.check = .ok ()
  issued : w.Issued
  located : ∀ j ∈ w.jobs, j.region ∈ w.regions.map key

variable {g : Ground} {S : Standard} {w w' : World}

theorem Reloadable.fit (h : w.Reloadable) : w.Fit w.ground ⟨True, False, False⟩ :=
  fit_of_check h.valid h.issued (fun _ => h.located) nofun nofun nofun

theorem Reloadable.solvent (h : w.Reloadable) : w.Solvent := by
  have hvalid := h.valid
  simp only [check, Check.then_ok, Check.forM_ok, checkCompany_ok] at hvalid
  obtain ⟨-, -, -, -, -, -, -, -, -, -, -, hsolvent, -⟩ := hvalid
  exact hsolvent

theorem Fit.reloadable (h : w.Fit g S) (hS : S.located) (hsolvent : w.Solvent) : w.Reloadable := by
  refine ⟨h.valid hsolvent, h.issued, fun j hj => ?_⟩
  obtain rfl := h.ground
  exact (h.job j hj).region hS

theorem Reloadable.operates (hw : w.Reloadable) (h : Operates w w') : w'.Reloadable := by
  cases h with
  | command cfg c h =>
      obtain ⟨hfit, -⟩ := Command.kept hw.fit nofun h
      exact hfit.reloadable trivial (Command.solvent hw.solvent h)
  | tick cfg r h =>
      obtain ⟨hfit, -⟩ := step_kept trivial hw.fit nofun h
      exact hfit.reloadable trivial (step_solvent hw.solvent h)

theorem Reloadable.runs (hw : w.Reloadable) (h : Runs w w') : w'.Reloadable := by
  induction h with
  | refl => exact hw
  | tail _ hlast ih => exact ih.operates hlast

theorem Reloadable.withClock (hw : w.Reloadable) (clock : Clock) : { w with clock }.Reloadable :=
  (hw.fit.withClock clock).reloadable trivial hw.solvent

end World

/-- Ticks in sequence are a run. -/
theorem runs_of_runTicks {cfg : EngineConfig} {stop : Nat → Bool} {done ticks : Nat} {w w' : World}
    {rs : List (TickReport × List Trade)} (h : (runTicks cfg stop done ticks).run w = .ok rs w') :
    Runs w w' := by
  induction ticks generalizing done w rs with
  | zero =>
      obtain ⟨-, rfl⟩ := Action.pure_ok.1 h
      exact .refl
  | succ ticks ih =>
      rw [runTicks] at h
      split at h
      · obtain ⟨-, rfl⟩ := Action.pure_ok.1 h
        exact .refl
      · simp only [Action.bind_ok, Action.pure_ok] at h
        obtain ⟨r, w₁, hstep, rs', _, hrest, rfl, rfl⟩ := h
        exact .head (.tick cfg r hstep) (ih hrest)

/-- What a request leads to is the end of a run, with another clock. -/
theorem Request.plan_runs {cfg : EngineConfig} {r : Request} {p : Plan} {w : World}
    (h : r.plan cfg w = .ok p) : ∃ w' clock, Runs w w' ∧ p.next = { w' with clock } := by
  cases r with
  | command c =>
      obtain ⟨q, hq, rfl⟩ := Check.map_ok.1 h
      obtain ⟨w', version, hrun, -, -, hnext⟩ := planCommand_ok.1 hq
      exact ⟨w', _, .single (.command cfg c hrun), hnext⟩
  | advance stop starts requested now =>
      obtain ⟨q, hq, rfl⟩ := Check.map_ok.1 h
      simp only [planAdvanceUntil, Check.bind_ok, Check.pure_ok] at hq
      obtain ⟨n, -, ⟨rs, w'⟩, hrun, rfl⟩ := hq
      have hruns := runs_of_runTicks (Action.outcome_ok.1 hrun)
      dsimp only [Plan.next]
      split
      · exact ⟨w', w'.clock, hruns, rfl⟩
      · exact ⟨w', _, hruns, rfl⟩

/-- A request that was carried out is a plan on the stored world that was committed. -/
theorem Request.exists_plan {σ : Type} [WorldStore σ] {s s' : Simulation σ} {r : Request} {w : World}
    (hread : s.snapshot = .ok w) (h : r.submit.run s = .ok () s') :
    ∃ p, r.plan s.config w = .ok p ∧ p.commit.run s = .ok () s' := by
  cases r with
  | command c =>
      rw [submit, Command.submit_eq] at h
      obtain ⟨q, _, hplan, hcommit⟩ := Action.bind_ok.1 h
      obtain ⟨hplan, rfl⟩ := Action.observe_ok.1 hplan
      obtain ⟨v, hv, hq⟩ := Check.bind_ok.1 hplan
      rw [hread, Except.ok.injEq] at hv
      exact ⟨.command q, Check.map_ok.2 ⟨q, hv ▸ hq, rfl⟩, hcommit⟩
  | advance stop starts requested now =>
      obtain ⟨result, h, -⟩ := Action.map_ok.1 h
      obtain ⟨q, _, hplan, hcommit⟩ := Action.bind_ok.1 h
      obtain ⟨hplan, rfl⟩ := Action.observe_ok.1 hplan
      obtain ⟨v, hv, hq⟩ := Check.bind_ok.1 hplan
      rw [hread, Except.ok.injEq] at hv
      exact ⟨.advance q, Check.map_ok.2 ⟨q, hv ▸ hq, rfl⟩, Action.map_ok.2 ⟨result, hcommit, rfl⟩⟩

theorem Simulation.accepted_ok {σ : Type} [WorldStore σ] {s s' : Simulation σ} {expected : UInt64}
    {r : Except StoreError (CommitOutcome × σ)} :
    s.accepted expected r = .ok s' ↔ ∃ store, r = .ok (.committed, store) ∧ s' = { s with store } := by
  cases r with
  | error e => simp [accepted]
  | ok r =>
      obtain ⟨outcome, store⟩ := r
      cases outcome <;> simp [accepted, CommitOutcome.accept, bind, Except.bind, pure, Except.pure, eq_comm]

/-- A commit on a database puts the document of the plan's world in its place. -/
theorem Plan.On.commit_database {p : Plan} {w : World} (h : p.On w) {s s' : Simulation Database}
    (hcommit : p.commit.run s = .ok () s') :
    s.store.commit p.expectedLockVersion p.next p.trades = .ok (.committed, s'.store) := by
  cases p with
  | command q =>
      obtain ⟨s₁, haccepted, hs⟩ := Check.bind_ok.1 (Action.transact_ok.1 hcommit)
      obtain ⟨store, hstore, rfl⟩ := Simulation.accepted_ok.1 haccepted
      cases hs
      exact hstore
  | advance q =>
      obtain ⟨result, hcommit, -⟩ := Action.map_ok.1 hcommit
      have hrun := Action.transact_ok.1 hcommit
      rw [if_neg h.ticksApplied_ne_zero] at hrun
      obtain ⟨s₁, haccepted, hs⟩ := Check.bind_ok.1 hrun
      obtain ⟨store, hstore, rfl⟩ := Simulation.accepted_ok.1 haccepted
      cases hs
      exact hstore

namespace Database

variable {db db' : Database} {w : World}

/-- A commit puts the document of the new world into the row and its trades behind the history. -/
theorem commit_ok {expected : UInt64} {trades : List Trade}
    (h : db.commit expected w trades = .ok (.committed, db')) :
    (∃ row, db'.world = some row ∧ row.snapshot = encode w) ∧
      trades.foldlM appendTrade db.trades = .ok db'.trades := by
  simp only [commit, Check.bind_ok] at h
  obtain ⟨row, hrow, version, -, h⟩ := h
  simp only [rowOf, Check.bind_ok, Check.pure_ok] at hrow
  obtain ⟨_, -, _, -, rfl⟩ := hrow
  split at h
  · cases h
  · split at h
    · simp only [Check.bind_ok, Check.pure_ok] at h
      obtain ⟨ts, hts, hdb⟩ := h
      cases hdb
      exact ⟨⟨_, rfl, rfl⟩, hts⟩
    · simp only [Check.bind_ok, Check.pure_ok] at h
      obtain ⟨v, -, hdb⟩ := h
      cases hdb

/-- What was committed is read, if its document stands for it and the check accepts it. -/
theorem read_commit {expected : UInt64} {trades : List Trade} (hcode : decode? (encode w) = some w)
    (hvalid : w.check = .ok ()) (h : db.commit expected w trades = .ok (.committed, db')) :
    db'.read = .ok w := by
  obtain ⟨⟨row, hrow, hsnapshot⟩, -⟩ := commit_ok h
  simp only [read, hrow, hsnapshot, hcode, hvalid]

end Database

/-- What can be loaded again is kept by every command and by every tick, hence by every run; and where it
is what a database holds, a request that was carried out leaves a world that is read next, provided that
its document is decoded to it. -/
theorem reloadable_kept {w : World} (hw : w.Reloadable) :
    (∀ w', Operates w w' → w'.Reloadable) ∧ (∀ w', Runs w w' → w'.Reloadable) ∧
      ∀ (s s' : Simulation Database) (r : Request), s.store.read = .ok w → r.submit.run s = .ok () s' →
        ∃ p, r.plan s.config w = .ok p ∧ (decode? (encode p.next) = some p.next →
          s'.store.read = .ok p.next ∧ p.next.Reloadable) := by
  refine ⟨fun _ h => hw.operates h, fun _ h => hw.runs h, ?_⟩
  intro s s' r hread hsubmit
  have hsnapshot : s.snapshot = .ok w := by
    simp only [Simulation.snapshot, WorldStore.read, hread]
  obtain ⟨p, hplan, hcommit⟩ := Request.exists_plan hsnapshot hsubmit
  obtain ⟨w', clock, hruns, hnext⟩ := Request.plan_runs hplan
  have hp : p.next.Reloadable := hnext ▸ (hw.runs hruns).withClock clock
  refine ⟨p, hplan, fun hcode => ⟨?_, hp⟩⟩
  exact Database.read_commit hcode hp.valid ((Request.plan_on hplan).commit_database hcommit)

/-- The busy world with two orders at prices below zero, which no sound world has. -/
def oddWorld : World :=
  { busyWorld with
    orders := busyWorld.orders ++ [⟨⟨15⟩, ⟨7⟩, ⟨2⟩, ⟨3⟩, .buy, -5, 1, 1, .unfilled, 4⟩,
      ⟨⟨16⟩, ⟨6⟩, ⟨2⟩, ⟨3⟩, .sell, -9, 1, 1, .unfilled, 4⟩]
    nextId := 16 }

/-- The odd world in a database, with an engine. -/
def oddSimulation : Simulation Database := ⟨⟨some ⟨4, 9, none, encode oddWorld⟩, []⟩, busyConfig⟩

/-- Two ticks, asked for at the start of 1970. -/
def twoTicks : Request := .advance (fun _ => false) rfl 2 ⟨0, 0⟩

/-- The odd world can be loaded again, and so can what two ticks make of it in a database. -/
theorem reloadable_kept_odd : oddWorld.Reloadable ∧ ¬ (∀ o ∈ oddWorld.orders, 0 < o.price) ∧
    (∃ w', Operates oddWorld w' ∧ Runs oddWorld w' ∧ w'.Reloadable) ∧
    oddSimulation.store.read = .ok oddWorld ∧
    ∃ (s' : Simulation Database) (w' : World), twoTicks.submit.run oddSimulation = .ok () s' ∧
      s'.store.read = .ok w' ∧ w'.Reloadable := by
  have hodd : oddWorld.Reloadable :=
    { valid := by decide +kernel
      issued := by decide +kernel
      located := by decide +kernel }
  have hpriced : ¬ (∀ o ∈ oddWorld.orders, 0 < o.price) := by decide +kernel
  have hread : oddSimulation.store.read = .ok oddWorld := by decide +kernel
  obtain ⟨-, hruns, hsubmitted⟩ := reloadable_kept hodd
  refine ⟨hodd, hpriced, ?_, hread, ?_⟩
  · have hstep : ((step busyConfig).outcome oddWorld).isOk := by decide +kernel
    obtain ⟨r, w', htick⟩ := Action.ok_of_outcome_isOk hstep
    have htick : Operates oddWorld w' := .tick busyConfig r htick
    exact ⟨w', htick, .single htick, hruns w' (.single htick)⟩
  · have hdecoded : (twoTicks.plan busyConfig oddWorld).map
        (fun p => decide (decode? (encode p.next) = some p.next)) = .ok true := by decide +kernel
    have hok : (twoTicks.submit.outcome oddSimulation).isOk := by decide +kernel
    obtain ⟨_, s', hsubmit⟩ := Action.ok_of_outcome_isOk hok
    obtain ⟨p, hplan, hnext⟩ := hsubmitted oddSimulation s' twoTicks hread hsubmit
    obtain ⟨p', hplan', hcode⟩ := Check.map_ok.1 hdecoded
    rw [show twoTicks.plan busyConfig oddWorld = .ok p from hplan, Except.ok.injEq] at hplan'
    subst hplan'
    obtain ⟨hread', hp⟩ := hnext (of_decide_eq_true hcode.symm)
    exact ⟨s', p.next, hsubmit, hread', hp⟩

/-- A world in which an order has a number that was not handed out yet. -/
def unissuedWorld : World :=
  { clock := ⟨0, 0, none⟩
    regions := [⟨⟨1⟩, "north"⟩]
    items := [⟨⟨2⟩, "ore"⟩]
    recipes := []
    companies := [⟨⟨3⟩, "mine", 1000, 0, false⟩]
    buildings := []
    jobs := []
    orders := [⟨⟨9⟩, ⟨3⟩, ⟨1⟩, ⟨2⟩, .buy, 10, 5, 0, .filled, 0⟩]
    trades := []
    shipments := []
    contracts := []
    allocations := []
    inventory := .ofBalances []
    marketPool := 0
    nextId := 4 }

/-- A world in which a job is in a region that does not exist. -/
def strandedWorld : World :=
  { unissuedWorld with
    recipes := [⟨⟨4⟩, "mining", "pit", [], ⟨2⟩, 1, 1⟩]
    buildings := [⟨⟨5⟩, ⟨3⟩, ⟨1⟩, "pit", .active, 1⟩]
    jobs := [⟨⟨6⟩, ⟨3⟩, ⟨5⟩, ⟨99⟩, ⟨4⟩, 1, 0, .queued, 0⟩]
    orders := []
    nextId := 6 }

/-- The check alone is not kept: a new order comes before one that has a higher number, and a job that is
done puts its output into a region that does not exist. -/
theorem check_not_kept : ({} : EngineConfig).check = .ok () ∧
    (unissuedWorld.check = .ok () ∧ ∃ w',
      ((Command.placeOrder ⟨⟨3⟩, ⟨1⟩, ⟨2⟩, .buy, 10, 5⟩).act {}).run unissuedWorld = .ok () w' ∧
        w'.check = .error (.unorderedIds (.entity .order) 5)) ∧
    strandedWorld.check = .ok () ∧ ∃ r w', (step {}).run strandedWorld = .ok r w' ∧
      w'.check = .error (.danglingReference .inventory .region 99) := by
  have hplaced : (((Command.placeOrder ⟨⟨3⟩, ⟨1⟩, ⟨2⟩, .buy, 10, 5⟩).act {}).outcome unissuedWorld).map
      (·.2.check) = .ok (.error (.unorderedIds (.entity .order) 5)) := by decide +kernel
  have hticked : ((step {}).outcome strandedWorld).map (·.2.check) =
      .ok (.error (.danglingReference .inventory .region 99)) := by decide +kernel
  obtain ⟨⟨_, w₁⟩, hrun₁, hcheck₁⟩ := Check.map_ok.1 hplaced
  obtain ⟨⟨r, w₂⟩, hrun₂, hcheck₂⟩ := Check.map_ok.1 hticked
  exact ⟨by decide, ⟨by decide +kernel, w₁, Action.outcome_ok.1 hrun₁, hcheck₁.symm⟩, by decide +kernel, r,
    w₂, Action.outcome_ok.1 hrun₂, hcheck₂.symm⟩

end Mercantile
