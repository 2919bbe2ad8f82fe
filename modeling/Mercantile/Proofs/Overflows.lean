import Mercantile.Proofs.References

/-!
Which overflows come from where. A tick works out some figures as a whole, before and after its phases, and a failure
that is none of theirs is one that a phase may end in (`Failure.isOfPhase`). Operations that only fail so
(`Action.Phased`) are put together from parts that only fail so, whatever the states in between, and the phases of a
tick are such operations (`runPhases_phased`).
-/

namespace Mercantile

/-- What only a tick as a whole works out: its number, the totals before and after it, and the next version. -/
def Figure.isOfFrame : Figure → Bool
  | .tickCounter | .ledgerTotal | .lockVersion | .expectedLedgerTotal | .conservationDrift => true
  | _ => false

/-- A phase of a tick may end in any other failure than an overflow of those. -/
def Failure.isOfPhase : Failure → Bool
  | .overflow figure => !figure.isOfFrame
  | _ => true

/-- An operation that fails, wherever it starts, as a phase may. -/
def Action.Phased {σ α : Type} (x : Action σ α) : Prop := ∀ s, x.FailsOnly (·.isOfPhase) s

/-- A check that fails as a phase may. -/
def Check.Phased {α : Type} (x : Except Failure α) : Prop := ∀ e, x = .error e → e.isOfPhase

namespace Check.Phased

variable {α β : Type}

theorem bind {x : Except Failure α} {f : α → Except Failure β} (hx : Phased x) (hf : ∀ a, Phased (f a)) :
    Phased (x >>= f) := by
  intro e h
  rcases bind_error.1 h with h | ⟨a, -, h⟩
  · exact hx e h
  · exact hf a e h

theorem pure (a : α) : Phased (Pure.pure a) := nofun

theorem orFail {x : Option α} {e : Failure} (h : e.isOfPhase) : Phased (orFail x e) := by
  intro e' h'
  rwa [(orFail_error.1 h').2]

theorem require {kind : EntityKind} [Keyed α kind] {xs : Roster α} {i : Id kind} : Phased (xs.require i) := by
  intro e h
  rw [(Roster.require_error.1 h).2]
  rfl

/-- A refusal of its own, and what comes after it. -/
theorem past {c : Prop} [Decidable c] {e : Failure} {f : α → Except Failure β} {x : Except Failure β}
    (he : e.isOfPhase) (hx : Phased x) : Phased (if c then (throw e : Except Failure α) >>= f else x) := by
  intro e' h
  rcases unless_error.1 h with ⟨-, rfl⟩ | ⟨-, h⟩
  · exact he
  · exact hx e' h

end Check.Phased

namespace Action.Phased

variable {σ τ α β : Type}

theorem bind {x : Action σ α} {f : α → Action σ β} (hx : x.Phased) (hf : ∀ a, (f a).Phased) : (x >>= f).Phased :=
  fun s => (hx s).bind fun a t _ => hf a t

theorem pure (a : α) : (Pure.pure a : Action σ α).Phased := fun _ => .pure a

theorem get : (get : Action σ σ).Phased := fun _ => .of_ok (get_ok.2 ⟨rfl, rfl⟩)

theorem modify (f : σ → σ) : (modify f : Action σ Unit).Phased := fun _ => .modify f

theorem lift {x : Except Failure α} (h : Check.Phased x) : (liftM x : Action σ α).Phased :=
  fun _ e _ hfail => h e (lift_error.1 hfail).1

theorem update {f : σ → Except Failure σ} (h : ∀ s, Check.Phased (f s)) : (Action.update f).Phased :=
  fun s => .update (h s)

theorem transact {f : σ → Except Failure (α × σ)} (h : ∀ s, Check.Phased (f s)) : (Action.transact f).Phased :=
  fun s => .transact (h s)

theorem zoom {get : σ → τ} {set : τ → σ → σ} {x : Action τ α} (h : x.Phased) : (Action.zoom get set x).Phased :=
  fun s => .zoom (h (get s))

theorem mapM {f : α → Action σ β} (hf : ∀ a, (f a).Phased) (as : List α) : (as.mapM f).Phased := by
  induction as with
  | nil => exact pure []
  | cons a as ih =>
      rw [List.mapM_cons]
      exact (hf a).bind fun b => ih.bind fun bs => pure _

theorem forM {f : α → Action σ Unit} (hf : ∀ a, (f a).Phased) (as : List α) : (as.forM f).Phased := by
  induction as with
  | nil => exact pure ()
  | cons a as ih =>
      rw [List.forM_eq_forM, List.forM_cons]
      exact (hf a).bind fun _ => ih

end Action.Phased

theorem notional_phased {price : Cents} {q : Quantity} : Check.Phased (notional price q) :=
  .bind (.orFail rfl) fun _ => .orFail rfl

theorem World.addStock_phased {k : StockKey} {q : Quantity} : (addStock k q).Phased :=
  .update fun _ => .bind (.bind (.orFail rfl) fun _ => .pure _) fun _ => .pure _

theorem World.removeStock_phased {k : StockKey} {q : Quantity} : (removeStock k q).Phased := by
  refine .update fun w => .bind (fun e h => ?_) fun _ => .pure _
  simp only [Inventory.remove] at h
  split at h
  · cases h
    rfl
  · cases h

theorem World.allocateId_phased {kind : EntityKind} : (allocateId kind).Phased :=
  .transact fun _ => .bind (.orFail rfl) fun _ => .pure _

theorem CashFlows.recordInflow_phased {amount : Cents} : (recordInflow amount).Phased :=
  .update fun _ => .bind (.orFail rfl) fun _ => .pure _

theorem CashFlows.recordOutflow_phased {amount : Cents} : (recordOutflow amount).Phased :=
  .update fun _ => .bind (.orFail rfl) fun _ => .pure _

namespace Ledger

theorem settle_phased {buyer seller : CompanyId} {reservedPrice price : Cents} {q : Quantity} :
    (settle buyer seller reservedPrice price q).Phased := by
  refine .transact fun w => ?_
  dsimp only
  refine .past rfl (.bind notional_phased fun debited => .bind notional_phased fun paid => ?_)
  refine .bind (.orFail rfl) fun refunded => .bind .require fun b => ?_
  refine .past rfl (.bind (.orFail rfl) fun buyerCash => ?_)
  split
  · exact .bind (.pure _) fun _ => .bind (.orFail rfl) fun _ => .bind (.orFail rfl) fun _ => .pure _
  · refine .bind (fun e h => ?_) fun _ => .bind (.orFail rfl) fun _ => .bind (.orFail rfl) fun _ => .pure _
    exact Check.Phased.require e (Check.map_error.1 h)

theorem changeCash_phased {i : CompanyId} {f : Cents → Option Cents} {figure : Figure} (h : figure.isOfFrame = false) :
    (changeCash i f figure).Phased :=
  .update fun _ => .bind .require fun _ => .bind (.orFail (by rw [Failure.isOfPhase, h]; rfl)) fun _ => .pure _

theorem credit_phased {i : CompanyId} {amount : Cents} : (credit i amount).Phased :=
  .bind (.zoom (changeCash_phased rfl)) fun _ => .zoom CashFlows.recordInflow_phased

theorem charge_phased {i : CompanyId} {amount : Cents} : (charge i amount).Phased :=
  .bind (.zoom (changeCash_phased rfl)) fun _ => .zoom CashFlows.recordOutflow_phased

end Ledger

theorem supplyBots_phased {cfg : BotConfig} : (supplyBots cfg).Phased := by
  unfold supplyBots
  split
  · exact .bind .get fun s => .forM (fun bot => Ledger.credit_phased) _
  · exact .pure ()

theorem fillOrder_phased {id : OrderId} {q : Quantity} : (fillOrder id q).Phased :=
  .update fun _ => .bind .require fun _ => .bind (.orFail rfl) fun _ => .pure _

theorem applyFill_phased {k : MarketKey} {tick : Tick} {f : Fill} : (applyFill k tick f).Phased :=
  .bind Ledger.settle_phased fun _ => .bind World.addStock_phased fun _ => .bind fillOrder_phased fun _ =>
    .bind fillOrder_phased fun _ => .bind World.allocateId_phased fun _ => .pure _

theorem clearMarket_phased {tick : Tick} {k : MarketKey} {b : Book} : (clearMarket tick k b).Phased := by
  unfold clearMarket
  exact .mapM (fun _ => applyFill_phased) _

theorem clearMarkets_phased {tick : Tick} : (clearMarkets tick).Phased := by
  unfold clearMarkets
  refine .bind .get fun w => .bind (.mapM (fun _ => clearMarket_phased) _) fun trades => ?_
  exact .bind (.modify _) fun _ => .pure _

theorem finishJob_phased {j : Job} {recipe : Recipe} {progress : UInt32} : (finishJob j recipe progress).Phased := by
  unfold finishJob
  split
  · exact .bind (.lift (.orFail rfl)) fun _ => .bind World.addStock_phased fun _ =>
      .bind (.modify _) fun _ => .pure _
  · exact .bind (.modify _) fun _ => .pure _

theorem workOn_phased {j : Job} {recipe : Recipe} {amount : UInt32} : (workOn j recipe amount).Phased := by
  refine .bind (.lift fun e h => ?_) fun inputs => .bind .get fun w => ?_
  · rw [scaledInputs_error h]
    rfl
  · dsimp only
    split
    · exact .bind (.forM (fun _ => World.removeStock_phased) _) fun _ => finishJob_phased
    · exact .bind (.modify _) fun _ => .pure _

theorem advanceJob_phased {id : JobId} {amount : UInt32} : (advanceJob id amount).Phased := by
  refine .bind .get fun w => .bind (.lift .require) fun j => .bind (.lift .require) fun recipe => ?_
  refine .bind (.lift .require) fun building => ?_
  split
  · exact .bind (.modify _) fun _ => .pure _
  · split
    · exact workOn_phased
    · exact finishJob_phased

theorem runJob_phased {multipliers : MultiplierTable} {cfg : ProductionConfig} {id : JobId} :
    (runJob multipliers cfg id).Phased := by
  refine .bind .get fun w => .bind (.lift .require) fun j => .bind (.lift fun e h => ?_) fun amount => ?_
  · rw [(progressStep_error h).1]
    rfl
  · exact .bind advanceJob_phased fun _ => .pure _

theorem runProduction_phased {multipliers : MultiplierTable} {cfg : ProductionConfig} :
    (runProduction multipliers cfg).Phased :=
  .bind .get fun _ => .bind (.mapM (fun _ => runJob_phased) _) fun _ => .pure _

theorem deliverShipment_phased {multipliers : MultiplierTable} {cfg : LogisticsConfig} {sh : Shipment} :
    (deliverShipment multipliers cfg sh).Phased := by
  have hmark : (do
      Account.onWorld (modify fun w => w.modifyShipment sh.id fun s => { s with status := .delivered })
      return sh.id : Action Account ShipmentId).Phased := .bind (.zoom (.modify _)) fun _ => .pure _
  refine .bind (.zoom World.addStock_phased) fun _ => .bind (.lift (.orFail rfl)) fun fee => ?_
  dsimp only
  split
  · exact .bind Ledger.charge_phased fun _ => hmark
  · exact hmark

theorem advanceShipments_phased {tick : Tick} {multipliers : MultiplierTable} {cfg : LogisticsConfig} :
    (advanceShipments tick multipliers cfg).Phased :=
  .bind .get fun _ => .mapM (fun _ => deliverShipment_phased) _

theorem payDelivery_phased {c : Contract} {q : Quantity} {value : Cents} : (payDelivery c q value).Phased := by
  unfold payDelivery
  split
  · exact .zoom (.bind Ledger.settle_phased fun _ => World.addStock_phased)
  · exact .bind (.zoom (.bind (.modify _) fun _ => Ledger.changeCash_phased rfl)) fun _ =>
      .zoom CashFlows.recordInflow_phased

theorem settleContract_phased {tick : Tick} {id : ContractId} : (settleContract tick id).Phased := by
  refine .bind .get fun s => .bind (.lift .require) fun c => .bind (.lift fun e h => ?_) fun q => ?_
  · rw [(deliverable_error h).1]
    rfl
  · split
    · exact .pure _
    · exact .bind (.lift notional_phased) fun _ => .bind (.zoom World.removeStock_phased) fun _ =>
        .bind payDelivery_phased fun _ => .bind (.zoom (.modify _)) fun _ => .pure _

theorem settleContracts_phased {tick : Tick} : (settleContracts tick).Phased :=
  .bind .get fun _ => .bind (.mapM (fun _ => settleContract_phased) _) fun _ => .pure _

/-- No phase works out what only the tick as a whole does. -/
theorem runPhases_phased {tick : Tick} {cfg : EngineConfig} : (runPhases tick cfg).Phased :=
  .bind supplyBots_phased fun _ => .bind .get fun _ => .bind (.zoom clearMarkets_phased) fun _ =>
    .bind (.zoom (.modify _)) fun _ => .bind (.zoom runProduction_phased) fun _ =>
      .bind advanceShipments_phased fun _ => .bind settleContracts_phased fun _ => .pure _

/-- To move the clock fails only for want of a next version. -/
theorem moveClock_error {tick : Tick} {w w' : World} {e : Failure} (h : (moveClock tick).run w = .error e w') :
    e = .overflow .lockVersion := by
  rcases Action.bind_error.1 h with h | ⟨-, t, -, h⟩
  · cases h
  · rcases Check.bind_error.1 (Action.update_error.1 h).1 with h | ⟨version, -, h⟩
    · exact (orFail_error.1 h).2
    · cases h

end Mercantile
