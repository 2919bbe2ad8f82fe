import Mercantile.Advance
import Mercantile.Health
import Mercantile.Proofs.Accounting
import Mercantile.Proofs.Commits
import Mercantile.Proofs.Runs

/-!
Trades that a world remembers. Each tick drops the trades before the window of its settings, in the middle of the
tick and with a bound of its own, and the state of health counts the trades of the same window later. A world
remembers what is recent of a history (`World.Remembers`); ticks and commands keep that, with the new trades at the
end of the history, and so the count is that of the whole history (`World.Remembers.count`).
-/

namespace Mercantile

/-- The trade is of the `window` ticks that end with `now`. -/
def Trade.isWithin (now : Tick) (window : UInt64) (t : Trade) : Bool :=
  t.tick.toNat ≤ now.toNat && now.toNat < t.tick.toNat + window.toNat

theorem Trade.isWithin_iff {now : Tick} {window : UInt64} {t : Trade} :
    t.isWithin now window ↔ t.tick.toNat ≤ now.toNat ∧ now.toNat < t.tick.toNat + window.toNat := by
  rw [isWithin, Bool.and_eq_true, decide_eq_true_eq, decide_eq_true_eq]

namespace World

variable {now later : Tick} {window : UInt64} {t : Trade}

theorem window_pos (h : window ≠ 0) : 0 < window.toNat :=
  Nat.pos_of_ne_zero fun hzero => h (UInt64.toNat_inj.1 hzero)

theorem isRecent_iff : isRecent now window t ↔ window ≠ 0 ∧ now.toNat < t.tick.toNat + window.toNat := by
  rw [isRecent, Bool.and_eq_true, decide_eq_true_eq, decide_eq_true_eq, and_congr_right_iff]
  intro hwindow
  have hpos := window_pos hwindow
  have hpred : (window - 1).toNat = window.toNat - 1 := UInt64.toNat_sub_of_le _ _ (UInt64.le_iff_toNat_le.2 hpos)
  rw [UInt64.le_iff_toNat_le, UInt64.toNat_subSat, hpred]
  omega

/-- What is recent was recent before. -/
theorem isRecent_mono (hle : now.toNat ≤ later.toNat) (h : isRecent later window t) : isRecent now window t := by
  rw [isRecent_iff] at h ⊢
  exact ⟨h.1, Nat.lt_of_le_of_lt hle h.2⟩

/-- Of what is recent later, nothing was dropped before. -/
theorem filter_recent (hle : now.toNat ≤ later.toNat) (earlier trades : List Trade) :
    (earlier.filter (isRecent now window) ++ trades).filter (isRecent later window) =
      (earlier ++ trades).filter (isRecent later window) := by
  have hrecent : (fun t => isRecent later window t && isRecent now window t) = isRecent later window := by
    funext t
    rw [Bool.and_eq_left_iff_imp]
    exact isRecent_mono hle
  calc (earlier.filter (isRecent now window) ++ trades).filter (isRecent later window)
    _ = (earlier.filter (isRecent now window)).filter (isRecent later window) ++
        trades.filter (isRecent later window) := List.filter_append ..
    _ = earlier.filter (isRecent later window) ++ trades.filter (isRecent later window) := by
        rw [List.filter_filter, hrecent]
    _ = (earlier ++ trades).filter (isRecent later window) := (List.filter_append ..).symm

/-- The count takes a window of none apart; else it is the number of trades within the window. -/
theorem shownTradeCount_eq (w : World) (cfg : HealthConfig) :
    shownTradeCount w cfg = w.trades.countP (·.isWithin w.clock.currentTick cfg.tradesWindowTicks) := by
  rw [shownTradeCount]
  by_cases hwindow : cfg.tradesWindowTicks = 0
  · rw [if_pos hwindow, eq_comm, List.countP_eq_zero]
    intro t _ ht
    have hzero : (0 : UInt64).toNat = 0 := rfl
    rw [Trade.isWithin_iff, hwindow, hzero] at ht
    omega
  · rw [if_neg hwindow, recentTradeCount]
    refine List.countP_congr fun t _ => ?_
    have hpos := window_pos hwindow
    have hone : (1 : UInt64).toNat = 1 := rfl
    rw [Bool.and_eq_true, decide_eq_true_eq, decide_eq_true_eq, Trade.isWithin_iff, UInt64.le_iff_toNat_le,
      UInt64.le_iff_toNat_le, UInt64.toNat_subSat, UInt64.toNat_subSat, hone]
    omega

/-- The world remembers what is recent of a history. The history is in the order of identifiers and of ticks, with
identifiers that were handed out and ticks that have been. -/
structure Remembers (w : World) (window : UInt64) (history : Roster Trade) : Prop where
  kept : w.trades = history.filter (isRecent w.clock.currentTick window)
  numbered : history.UpTo w.nextId
  ordered : history.Pairwise (·.tick.toNat ≤ ·.tick.toNat)
  past : ∀ t ∈ history, t.tick.toNat ≤ w.clock.currentTick.toNat

namespace Remembers

variable {w w' : World} {history : Roster Trade}

theorem start (h : w.trades = []) : w.Remembers window ([] : Roster Trade) :=
  ⟨h, ⟨List.Pairwise.nil, nofun⟩, List.Pairwise.nil, nofun⟩

/-- Nothing that counts has been dropped. -/
theorem count (h : w.Remembers window history) :
    w.trades.countP (·.isWithin w.clock.currentTick window) =
      history.countP (·.isWithin w.clock.currentTick window) := by
  rw [h.kept, List.countP_filter]
  refine List.countP_congr fun t _ => ?_
  rw [Bool.and_eq_true, and_iff_left_iff_imp, Trade.isWithin_iff, isRecent_iff]
  rintro ⟨hpast, hrecent⟩
  refine ⟨?_, hrecent⟩
  rintro rfl
  have hzero : (0 : UInt64).toNat = 0 := rfl
  omega

/-- Only the trades, the tick and the sequence of identifiers matter. -/
theorem congr (h : w.Remembers window history) (htrades : w'.trades = w.trades)
    (htick : w'.clock.currentTick = w.clock.currentTick) (hnext : w.nextId.toNat ≤ w'.nextId.toNat) :
    w'.Remembers window history where
  kept := by rw [htrades, htick, h.kept]
  numbered := h.numbered.mono hnext
  ordered := h.ordered
  past := by
    rw [htick]
    exact h.past

end Remembers

end World

variable {w w' : World} {cfg : EngineConfig} {window : UInt64} {history : Roster Trade}

/-- The trades of a tick have its number and new identifiers, and what is recent of them and of the trades before
is remembered. -/
theorem step_trades {report : TickReport} {trades : List Trade} (h : (step cfg).run w = .ok (report, trades) w') :
    w'.trades = (w.trades ++ trades).filter
        (World.isRecent w'.clock.currentTick cfg.health.tradesWindowTicks) ∧
      w.nextId.toNat ≤ w'.nextId.toNat ∧ Roster.UpTo w'.nextId trades ∧
      ∀ t ∈ trades, w.nextId.toNat < t.id.toNat ∧ t.tick = w'.clock.currentTick := by
  obtain ⟨tick, before, after, drift, o, s, -, -, hphases, hclock, -, -, -, rfl⟩ := step_ok h
  obtain ⟨s₁, w₂, w₃, s₄, hbots, hclear, hproduction, hdelivered, hdeliveries⟩ := runPhases_ok hphases
  obtain ⟨v, -, rfl⟩ := moveClock_ok.1 hclock
  obtain ⟨w₁, hfills, rfl⟩ := clearMarkets_ok.1 hclear
  have hmoved := supplyBots_moved hbots
  have hfiled : w₁.trades = w.trades := by
    refine Action.mapM_keeps (P := fun t => t.trades = w.trades) (fun m _ t r t' ht hrun => ?_) ?_ hfills
    · rw [applyFill_frame hrun]
      exact ht
    · rw [hmoved.frame]
  have hafter : s.world.trades = (w₁.trades ++ o.trades).filter
        (World.isRecent tick cfg.health.tradesWindowTicks) ∧ s.world.nextId = w₁.nextId := by
    rw [settleContracts_frame hdeliveries, advanceShipments_frame hdelivered, runProduction_frame hproduction]
    exact ⟨rfl, rfl⟩
  have hnext : s₁.world.nextId = w.nextId := by rw [hmoved.frame]
  obtain ⟨hle, hupTo, hnew⟩ := numbered_of_fills hfills
  rw [hnext] at hle hnew
  refine ⟨?_, ?_, ?_, fun t ht => ⟨hnew t ht, ?_⟩⟩
  · rw [hafter.1, hfiled]
  · rw [hafter.2]
    exact hle
  · rw [hafter.2]
    exact hupTo
  · obtain ⟨m, -, i, rfl⟩ := (fills_recorded hfills).exists_of_mem ht
    rfl

namespace World.Remembers

theorem step {report : TickReport} {trades : List Trade}
    (hw : w.Remembers cfg.health.tradesWindowTicks history)
    (h : (Mercantile.step cfg).run w = .ok (report, trades) w') :
    w'.Remembers cfg.health.tradesWindowTicks (history ++ trades) := by
  obtain ⟨htrades, hnext, hupTo, hnew⟩ := step_trades h
  obtain ⟨-, htick⟩ := step_clock h
  have hle : w.clock.currentTick.toNat ≤ w'.clock.currentTick.toNat := by omega
  refine ⟨?_, ?_, ?_, ?_⟩
  · rw [htrades, hw.kept]
    exact filter_recent hle history trades
  · refine (hw.numbered.mono hnext).appendAll hupTo fun t ht u hu => ?_
    exact Nat.lt_of_le_of_lt (hw.numbered.bounded u hu) (hnew t ht).1
  · refine List.pairwise_append.2 ⟨hw.ordered, ?_, fun u hu t ht => ?_⟩
    · refine List.pairwise_of_forall_mem_list fun t ht u hu => ?_
      rw [(hnew t ht).2, (hnew u hu).2]
    · rw [(hnew t ht).2]
      exact (hw.past u hu).trans hle
  · intro t ht
    rcases List.mem_append.1 ht with ht | ht
    · exact (hw.past t ht).trans hle
    · rw [(hnew t ht).2]

/-- Ticks in sequence put their trades at the end of the history, all of them later than the tick before the
first. -/
theorem runTicks {stop : Nat → Bool} {done ticks : Nat} {rs : List (TickReport × List Trade)}
    (hw : w.Remembers cfg.health.tradesWindowTicks history)
    (h : (Mercantile.runTicks cfg stop done ticks).run w = .ok rs w') :
    w'.Remembers cfg.health.tradesWindowTicks (history ++ rs.flatMap (·.2)) ∧
      ∀ t ∈ rs.flatMap (·.2), w.clock.currentTick.toNat < t.tick.toNat := by
  induction ticks generalizing done w history rs with
  | zero =>
      obtain ⟨rfl, rfl⟩ := Action.pure_ok.1 h
      rw [List.flatMap_nil, List.append_nil]
      exact ⟨hw, nofun⟩
  | succ ticks ih =>
      rw [Mercantile.runTicks] at h
      split at h
      · obtain ⟨rfl, rfl⟩ := Action.pure_ok.1 h
        rw [List.flatMap_nil, List.append_nil]
        exact ⟨hw, nofun⟩
      · simp only [Action.bind_ok, Action.pure_ok] at h
        obtain ⟨⟨report, trades⟩, w₁, hstep, rs', _, hrest, rfl, rfl⟩ := h
        obtain ⟨-, -, -, hnew⟩ := step_trades hstep
        obtain ⟨-, htick⟩ := step_clock hstep
        obtain ⟨hkept, hlater⟩ := ih (hw.step hstep) hrest
        rw [List.flatMap_cons, ← List.append_assoc]
        refine ⟨hkept, fun t ht => ?_⟩
        rcases List.mem_append.1 ht with ht | ht
        · rw [(hnew t ht).2]
          omega
        · have := hlater t ht
          omega

/-- A plan of ticks adds the trades of its batch, whose ticks are in the batch's range. -/
theorem plan {stop : Nat → Bool} {requested : Int64} {now : Timestamp} {p : AdvancePlan}
    (hw : w.Remembers cfg.health.tradesWindowTicks history)
    (h : planAdvanceUntil stop w requested cfg now = .ok p) :
    p.batch.next.Remembers cfg.health.tradesWindowTicks (history ++ p.batch.trades) ∧
      ∀ t ∈ p.batch.trades, p.batch.fromTick < t.tick ∧ t.tick ≤ p.batch.toTick := by
  simp only [planAdvanceUntil, Check.bind_ok, Check.pure_ok] at h
  obtain ⟨n, -, ⟨rs, w₁⟩, hrun, rfl⟩ := h
  obtain ⟨hkept, hlater⟩ := hw.runTicks (Action.outcome_ok.1 hrun)
  have hnext : World.Remembers (if rs.isEmpty then w₁ else
      { w₁ with clock := { w₁.clock with lastAdvancedAt := some now } })
      cfg.health.tradesWindowTicks (history ++ rs.flatMap (·.2)) := by
    split
    · exact hkept
    · exact hkept.congr rfl rfl (Nat.le_refl _)
  refine ⟨hnext, fun t ht => ⟨UInt64.lt_iff_toNat_lt.2 (hlater t ht), UInt64.le_iff_toNat_le.2 ?_⟩⟩
  exact hnext.past t (List.mem_append_right _ ht)

/-- The plan of a command leaves the trades alone. -/
theorem planCommand {c : Command} {p : CommandPlan Unit} (hw : w.Remembers window history)
    (h : Mercantile.planCommand (c.act cfg) w = .ok p) : p.next.Remembers window history := by
  obtain ⟨next, version, hrun, -, -, hnext⟩ := planCommand_ok.1 h
  have hframe := Command.act_frame hrun
  have hle := Command.nextId_le hrun
  rw [hnext]
  refine hw.congr ?_ ?_ hle
  · rw [hframe]
  · rw [hframe]

end World.Remembers

end Mercantile
