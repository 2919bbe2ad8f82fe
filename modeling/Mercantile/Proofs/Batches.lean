import Mercantile.Proofs.Commits

/-!
Long requests and short ones. No phase of a tick looks at the time at which ticks were last computed, so an
operation on a world with another such time does the same and keeps that time (`Commutes`, `step_commutes`).
Hence a request for ticks is the same as two requests for its parts, the second on top of the first
(`planAdvance_append`): the same world, trades, reports and clock, and the same failure.
-/

namespace Mercantile

namespace Action

variable {σ τ α β : Type}

/-- A result with another state in it. -/
def resultMap (φ : σ → σ) : EStateM.Result Failure σ α → EStateM.Result Failure σ α
  | .ok a s => .ok a (φ s)
  | .error e s => .error e (φ s)

/-- On a state that `φ` changed an operation does the same, and leaves the state that `φ` makes of the one it
would have left. -/
def Commutes (φ : σ → σ) (x : Action σ α) : Prop := ∀ s, x.run (φ s) = resultMap φ (x.run s)

namespace Commutes

variable {φ : σ → σ} {ψ : τ → τ}

theorem pure (a : α) : (Pure.pure a : Action σ α).Commutes φ := fun _ => rfl

theorem bind {x : Action σ α} {f : α → Action σ β} (hx : x.Commutes φ) (hf : ∀ a, (f a).Commutes φ) :
    (x >>= f).Commutes φ := by
  intro s
  have hfirst := hx s
  simp only [EStateM.run, Bind.bind, EStateM.bind] at hfirst ⊢
  rw [hfirst]
  cases x s with
  | ok a t => exact hf a t
  | error e t => rfl

theorem bind_pure {x : Action σ α} (hx : x.Commutes φ) (f : α → β) :
    (x >>= fun a => Pure.pure (f a)).Commutes φ :=
  hx.bind fun a => pure (f a)

/-- What follows a look at the state must not see the change. -/
theorem get_bind {f : σ → Action σ α} (hblind : ∀ s, f (φ s) = f s) (hf : ∀ s, (f s).Commutes φ) :
    (get >>= f).Commutes φ := by
  intro s
  change (f (φ s)).run (φ s) = resultMap φ ((f s).run s)
  rw [hblind]
  exact hf s s

theorem lift (x : Except Failure α) : (liftM x : Action σ α).Commutes φ := by
  intro s
  change observe (fun _ => x) (φ s) = resultMap φ (observe (fun _ => x) s)
  cases x <;> rfl

theorem modified {f : σ → σ} (hf : ∀ s, f (φ s) = φ (f s)) : (modify f : Action σ Unit).Commutes φ := by
  intro s
  change EStateM.Result.ok () (f (φ s)) = .ok () (φ (f s))
  rw [hf]

theorem update {f : σ → Except Failure σ} (hf : ∀ s, f (φ s) = φ <$> f s) : (Action.update f).Commutes φ := by
  intro s
  change Action.update f (φ s) = resultMap φ (Action.update f s)
  simp only [Action.update, hf]
  cases f s <;> rfl

theorem transact {f : σ → Except Failure (α × σ)} (hf : ∀ s, f (φ s) = Prod.map id φ <$> f s) :
    (Action.transact f).Commutes φ := by
  intro s
  change Action.transact f (φ s) = resultMap φ (Action.transact f s)
  simp only [Action.transact, hf]
  cases f s <;> rfl

/-- The change of a state is seen as a change of the part that the operation runs on. -/
theorem zoom {get : σ → τ} {set : τ → σ → σ} {x : Action τ α} (hx : x.Commutes ψ)
    (hget : ∀ s, get (φ s) = ψ (get s)) (hset : ∀ t s, set (ψ t) (φ s) = φ (set t s)) :
    (Action.zoom get set x).Commutes φ := by
  intro s
  have hpart := hx (get s)
  change Action.zoom get set x (φ s) = resultMap φ (Action.zoom get set x s)
  simp only [EStateM.run] at hpart
  simp only [Action.zoom, hget, hpart]
  cases x (get s) with
  | ok a t => exact congrArg (EStateM.Result.ok a) (hset t s)
  | error e t => exact congrArg (EStateM.Result.error e) (hset t s)

theorem mapM {f : α → Action σ β} (hf : ∀ a, (f a).Commutes φ) (as : List α) : (as.mapM f).Commutes φ := by
  induction as with
  | nil => exact pure []
  | cons a as ih =>
      rw [List.mapM_cons]
      apply bind (hf a)
      intro b
      apply bind ih
      intro bs
      exact pure (b :: bs)

theorem forM {f : α → Action σ Unit} (hf : ∀ a, (f a).Commutes φ) (as : List α) : (as.forM f).Commutes φ := by
  induction as with
  | nil => exact pure ()
  | cons a as ih =>
      rw [List.forM_eq_forM, List.forM_cons, ← List.forM_eq_forM]
      apply bind (hf a)
      intro _
      exact ih

end Commutes

end Action

/-- The world with another time at which ticks were last computed. -/
def World.advancedAt (t : Option Timestamp) (w : World) : World :=
  { w with clock := { w.clock with lastAdvancedAt := t } }

def Account.advancedAt (t : Option Timestamp) (s : Account) : Account :=
  { s with world := s.world.advancedAt t }

variable {t : Option Timestamp} {α : Type}

theorem Account.onWorld_commutes {x : Action World α} (hx : x.Commutes (World.advancedAt t)) :
    (onWorld x).Commutes (Account.advancedAt t) :=
  hx.zoom (fun _ => rfl) fun _ _ => rfl

theorem Account.onFlows_commutes (x : Action CashFlows α) : (onFlows x).Commutes (Account.advancedAt t) := by
  apply Action.Commutes.zoom (ψ := id)
  · intro f
    change x.run f = Action.resultMap id (x.run f)
    cases x.run f <;> rfl
  · intro s
    rfl
  · intro f s
    rfl

/-- A change of the world that the time does not matter to. -/
theorem Account.modify_commutes {f : World → World} (hf : ∀ w, f (w.advancedAt t) = (f w).advancedAt t) :
    (onWorld (modify f)).Commutes (Account.advancedAt t) :=
  onWorld_commutes (Action.Commutes.modified hf)

theorem addStock_commutes (k : StockKey) (q : Quantity) :
    (World.addStock k q).Commutes (World.advancedAt t) := by
  apply Action.Commutes.update
  intro w
  simp only [map_bind, map_pure]
  rfl

theorem removeStock_commutes (k : StockKey) (q : Quantity) :
    (World.removeStock k q).Commutes (World.advancedAt t) := by
  apply Action.Commutes.update
  intro w
  simp only [map_bind, map_pure]
  rfl

theorem allocateId_commutes (kind : EntityKind) :
    (World.allocateId kind).Commutes (World.advancedAt t) := by
  apply Action.Commutes.transact
  intro w
  simp only [map_bind, map_pure]
  rfl

theorem changeCash_commutes (company : CompanyId) (f : Cents → Option Cents) (figure : Figure) :
    (Ledger.changeCash company f figure).Commutes (World.advancedAt t) := by
  apply Action.Commutes.update
  intro w
  simp only [map_bind, map_pure]
  rfl

theorem settle_commutes (buyer seller : CompanyId) (reservedPrice price : Cents) (q : Quantity) :
    (Ledger.settle buyer seller reservedPrice price q).Commutes (World.advancedAt t) := by
  apply Action.Commutes.transact
  intro w
  simp only [map_bind, map_pure, apply_ite (Functor.map _)]
  rfl

theorem supplyBots_commutes (cfg : BotConfig) : (supplyBots cfg).Commutes (Account.advancedAt t) := by
  unfold supplyBots
  split
  · apply Action.Commutes.get_bind
    · intro s
      rfl
    · intro s
      apply Action.Commutes.forM
      intro bot
      apply (Account.onWorld_commutes (changeCash_commutes _ _ _)).bind
      intro _
      exact Account.onFlows_commutes _
  · exact .pure ()

theorem fillOrder_commutes (id : OrderId) (q : Quantity) :
    (fillOrder id q).Commutes (World.advancedAt t) := by
  apply Action.Commutes.update
  intro w
  simp only [map_bind, map_pure]
  rfl

theorem applyFill_commutes (k : MarketKey) (tick : Tick) (f : Fill) :
    (applyFill k tick f).Commutes (World.advancedAt t) := by
  unfold applyFill
  apply (settle_commutes _ _ _ _ _).bind
  intro _
  apply (addStock_commutes _ _).bind
  intro _
  apply (fillOrder_commutes _ _).bind
  intro _
  apply (fillOrder_commutes _ _).bind
  intro _
  exact (allocateId_commutes _).bind_pure _

theorem clearMarkets_commutes (tick : Tick) : (clearMarkets tick).Commutes (World.advancedAt t) := by
  apply Action.Commutes.get_bind
  · intro w
    rfl
  · intro w
    apply Action.Commutes.bind
    · apply Action.Commutes.mapM
      intro e
      exact .mapM (applyFill_commutes e.1 tick) _
    · intro trades
      apply Action.Commutes.bind
      · apply Action.Commutes.modified
        intro w
        rfl
      · intro _
        exact .pure _

theorem setJob_commutes (id : JobId) (state : JobState) (progress : UInt32) :
    (setJob id state progress).Commutes (World.advancedAt t) := by
  apply Action.Commutes.modified
  intro w
  rfl

theorem finishJob_commutes (j : Job) (recipe : Recipe) (progress : UInt32) :
    (finishJob j recipe progress).Commutes (World.advancedAt t) := by
  unfold finishJob
  split
  · apply (Action.Commutes.lift _).bind
    intro output
    apply (addStock_commutes _ _).bind
    intro _
    exact (setJob_commutes _ _ _).bind_pure _
  · exact (setJob_commutes _ _ _).bind_pure _

theorem workOn_commutes (j : Job) (recipe : Recipe) (step : UInt32) :
    (workOn j recipe step).Commutes (World.advancedAt t) := by
  apply (Action.Commutes.lift _).bind
  intro inputs
  apply Action.Commutes.get_bind
  · intro w
    rfl
  · intro w
    dsimp only
    split
    · apply (Action.Commutes.forM (fun i => removeStock_commutes _ _) _).bind
      intro _
      exact finishJob_commutes _ _ _
    · exact (setJob_commutes _ _ _).bind_pure _

theorem runJob_commutes (multipliers : MultiplierTable) (cfg : ProductionConfig) (id : JobId) :
    (runJob multipliers cfg id).Commutes (World.advancedAt t) := by
  apply Action.Commutes.get_bind
  · intro w
    rfl
  · intro w
    apply (Action.Commutes.lift _).bind
    intro j
    apply (Action.Commutes.lift _).bind
    intro step
    apply Action.Commutes.bind
    · apply Action.Commutes.get_bind
      · intro w
        rfl
      · intro w
        apply (Action.Commutes.lift _).bind
        intro j
        apply (Action.Commutes.lift _).bind
        intro recipe
        apply (Action.Commutes.lift _).bind
        intro building
        split
        · exact (setJob_commutes _ _ _).bind_pure _
        · split
          · exact workOn_commutes _ _ _
          · exact finishJob_commutes _ _ _
    · intro outcome
      exact .pure _

theorem runProduction_commutes (multipliers : MultiplierTable) (cfg : ProductionConfig) :
    (runProduction multipliers cfg).Commutes (World.advancedAt t) := by
  apply Action.Commutes.get_bind
  · intro w
    rfl
  · intro w
    exact (Action.Commutes.mapM (runJob_commutes multipliers cfg) _).bind_pure _

theorem deliverShipment_commutes (multipliers : MultiplierTable) (cfg : LogisticsConfig) (sh : Shipment) :
    (deliverShipment multipliers cfg sh).Commutes (Account.advancedAt t) := by
  unfold deliverShipment
  apply (Account.onWorld_commutes (addStock_commutes _ _)).bind
  intro _
  apply (Action.Commutes.lift _).bind
  intro fee
  have hrest : (do
      Account.onWorld (modify fun w => w.modifyShipment sh.id fun s => { s with status := .delivered })
      return sh.id : Action Account ShipmentId).Commutes (Account.advancedAt t) := by
    apply Action.Commutes.bind_pure
    apply Account.modify_commutes
    intro w
    rfl
  split
  · apply Action.Commutes.bind
    · apply (Account.onWorld_commutes (changeCash_commutes _ _ _)).bind
      intro _
      exact Account.onFlows_commutes _
    · intro _
      exact hrest
  · exact hrest

theorem advanceShipments_commutes (tick : Tick) (multipliers : MultiplierTable) (cfg : LogisticsConfig) :
    (advanceShipments tick multipliers cfg).Commutes (Account.advancedAt t) := by
  apply Action.Commutes.get_bind
  · intro s
    rfl
  · intro s
    exact .mapM (deliverShipment_commutes multipliers cfg) _

theorem payDelivery_commutes (c : Contract) (q : Quantity) (value : Cents) :
    (payDelivery c q value).Commutes (Account.advancedAt t) := by
  unfold payDelivery
  split
  · apply Account.onWorld_commutes
    apply (settle_commutes _ _ _ _ _).bind
    intro _
    exact addStock_commutes _ _
  · apply Action.Commutes.bind
    · apply Account.onWorld_commutes
      apply Action.Commutes.bind
      · apply Action.Commutes.modified
        intro w
        rfl
      · intro _
        exact changeCash_commutes _ _ _
    · intro _
      exact Account.onFlows_commutes _

theorem settleContract_commutes (tick : Tick) (id : ContractId) :
    (settleContract tick id).Commutes (Account.advancedAt t) := by
  apply Action.Commutes.get_bind
  · intro s
    rfl
  · intro s
    apply (Action.Commutes.lift _).bind
    intro c
    apply (Action.Commutes.lift _).bind
    intro q
    split
    · exact .pure _
    · apply (Action.Commutes.lift _).bind
      intro value
      apply (Account.onWorld_commutes (removeStock_commutes _ _)).bind
      intro _
      apply (payDelivery_commutes _ _ _).bind
      intro _
      apply Action.Commutes.bind_pure
      apply Account.modify_commutes
      intro w
      rfl

theorem settleContracts_commutes (tick : Tick) :
    (settleContracts tick).Commutes (Account.advancedAt t) := by
  apply Action.Commutes.get_bind
  · intro s
    rfl
  · intro s
    exact (Action.Commutes.mapM (settleContract_commutes tick) _).bind_pure _

theorem runPhases_commutes (tick : Tick) (cfg : EngineConfig) :
    (runPhases tick cfg).Commutes (Account.advancedAt t) := by
  apply (supplyBots_commutes _).bind
  intro _
  apply Action.Commutes.get_bind
  · intro s
    rfl
  · intro s
    apply (Account.onWorld_commutes (clearMarkets_commutes _)).bind
    intro trades
    apply Action.Commutes.bind
    · apply Account.modify_commutes
      intro w
      rfl
    · intro _
      apply (Account.onWorld_commutes (runProduction_commutes _ _)).bind
      intro production
      apply (advanceShipments_commutes _ _ _).bind
      intro delivered
      exact (settleContracts_commutes _).bind_pure _

theorem moveClock_commutes (tick : Tick) : (moveClock tick).Commutes (World.advancedAt t) := by
  apply Action.Commutes.bind
  · apply Action.Commutes.modified
    intro w
    rfl
  · intro _
    apply Action.Commutes.update
    intro w
    simp only [map_bind, map_pure]
    rfl

theorem stepAccount_commutes (cfg : EngineConfig) : (stepAccount cfg).Commutes (Account.advancedAt t) := by
  apply Action.Commutes.get_bind
  · intro s
    rfl
  · intro s
    apply (Action.Commutes.lift _).bind
    intro tick
    apply (Action.Commutes.lift _).bind
    intro before
    apply (runPhases_commutes _ _).bind
    intro o
    apply (Account.onWorld_commutes (moveClock_commutes _)).bind
    intro _
    apply Action.Commutes.get_bind
    · intro s
      rfl
    · intro s
      apply (Action.Commutes.lift _).bind
      intro after
      exact (Action.Commutes.lift _).bind_pure _

/-- A tick neither reads nor changes the time of the last advance. -/
theorem step_commutes (cfg : EngineConfig) : (step cfg).Commutes (World.advancedAt t) :=
  (stepAccount_commutes cfg).zoom (fun _ => rfl) fun _ _ => rfl

theorem runTicks_commutes (cfg : EngineConfig) (stop : Nat → Bool) (done ticks : Nat) :
    (runTicks cfg stop done ticks).Commutes (World.advancedAt t) := by
  induction ticks generalizing done with
  | zero => exact .pure []
  | succ ticks ih =>
      unfold runTicks
      split
      · exact .pure []
      · apply (step_commutes cfg).bind
        intro r
        exact (ih (done + 1)).bind_pure _

/-- Ticks that nothing stops do not depend on how many were done before. -/
theorem runTicks_done (cfg : EngineConfig) (done done' ticks : Nat) :
    runTicks cfg (fun _ => false) done ticks = runTicks cfg (fun _ => false) done' ticks := by
  induction ticks generalizing done done' with
  | zero => rfl
  | succ ticks ih =>
      unfold runTicks
      rw [ih (done + 1) (done' + 1)]

theorem runTicks_add (cfg : EngineConfig) (m n : Nat) :
    runTicks cfg (fun _ => false) 0 (m + n) = (do
      let rs ← runTicks cfg (fun _ => false) 0 m
      let rs' ← runTicks cfg (fun _ => false) 0 n
      return rs ++ rs') := by
  induction m with
  | zero => simp [runTicks]
  | succ m ih =>
      rw [Nat.succ_add]
      simp only [runTicks, Bool.false_eq_true, if_false]
      rw [runTicks_done cfg (0 + 1) 0, runTicks_done cfg (0 + 1) 0, ih]
      simp

theorem checkTicks_eq {requested : Int64} {cfg : EngineConfig} (hpos : 0 < requested.toInt)
    (hmax : requested.toInt ≤ cfg.maxTicksPerRequest.toNat) :
    checkTicks requested cfg = .ok requested.toInt.toNat := by
  have hbound := cfg.maxTicksPerRequest.toNat_lt
  have hlimit : (Int64.ofNat cfg.maxTicksPerRequest.toNat).toInt = cfg.maxTicksPerRequest.toNat :=
    Int64.toInt_ofNat_of_lt (by omega)
  have hone : (1 : Int64).toInt = 1 := by decide
  have hrange : ¬ (requested < 1 ∨ Int64.ofNat cfg.maxTicksPerRequest.toNat < requested) := by
    rw [Int64.lt_iff_toInt_lt, Int64.lt_iff_toInt_lt, hone, hlimit]
    omega
  rw [checkTicks, checkRange, if_neg hrange]

/-- The plan for ticks that were run from a snapshot. -/
def planOf (snapshot : World) (now : Timestamp) (r : List (TickReport × List Trade) × World) : AdvancePlan :=
  ⟨snapshot.clock.lockVersion,
    ⟨snapshot.clock.currentTick, r.2.clock.currentTick, r.2.advancedAt (some now), r.1.flatMap (·.2)⟩,
    r.1.map (·.1)⟩

/-- A request within the limit is its ticks, and the time at which they were computed. -/
theorem planAdvance_eq {requested : Int64} {cfg : EngineConfig} (hpos : 0 < requested.toInt)
    (hmax : requested.toInt ≤ cfg.maxTicksPerRequest.toNat) (w : World) (now : Timestamp) :
    planAdvance w requested cfg now =
      planOf w now <$> (runTicks cfg (fun _ => false) 0 requested.toInt.toNat).outcome w := by
  rw [planAdvance, planAdvanceUntil, checkTicks_eq hpos hmax]
  dsimp only [bind, Except.bind]
  cases hrun : (runTicks cfg (fun _ => false) 0 requested.toInt.toNat).outcome w with
  | error e => rfl
  | ok r =>
      have hne : r.1 ≠ [] := runTicks_ne_nil rfl (by omega) (Action.outcome_ok.1 hrun)
      dsimp only
      rw [if_neg (by simpa using hne)]
      rfl

/-- Two plans as one, the second on top of the world that the first leads to. -/
def AdvancePlan.followedBy (p q : AdvancePlan) : AdvancePlan :=
  ⟨p.expectedLockVersion, ⟨p.batch.fromTick, q.batch.toTick, q.batch.next, p.batch.trades ++ q.batch.trades⟩,
    p.reports ++ q.reports⟩

theorem Action.outcome_bind {σ α β : Type} (x : Action σ α) (f : α → Action σ β) (s : σ) :
    (x >>= f).outcome s = x.outcome s >>= fun r => (f r.1).outcome r.2 := by
  simp only [outcome, bind, EStateM.bind, Except.bind]
  cases x s <;> rfl

theorem Action.Commutes.outcome {σ α : Type} {φ : σ → σ} {x : Action σ α} (hx : x.Commutes φ) (s : σ) :
    x.outcome (φ s) = Prod.map id φ <$> x.outcome s := by
  have hrun := hx s
  simp only [EStateM.run] at hrun
  simp only [Action.outcome, hrun]
  cases x s <;> rfl

theorem toInt_add_of_le {cfg : EngineConfig} {a b : Int64} (ha : 0 < a.toInt) (hb : 0 < b.toInt)
    (hmax : a.toInt + b.toInt ≤ cfg.maxTicksPerRequest.toNat) : (a + b).toInt = a.toInt + b.toInt := by
  have hlimit := cfg.maxTicksPerRequest.toNat_lt
  rw [Int64.toInt_add]
  exact Int.bmod_eq_of_le (by omega) (by omega)

/-- A request is the same as its two parts in sequence, whenever the first of them is computed. -/
theorem planAdvance_append (w : World) (cfg : EngineConfig) (earlier now : Timestamp) {a b : Int64}
    (ha : 0 < a.toInt) (hb : 0 < b.toInt) (hmax : a.toInt + b.toInt ≤ cfg.maxTicksPerRequest.toNat) :
    planAdvance w (a + b) cfg now = (do
      let p ← planAdvance w a cfg earlier
      let q ← planAdvance p.batch.next b cfg now
      return p.followedBy q) := by
  have hsum := toInt_add_of_le ha hb hmax
  have hticks : (a + b).toInt.toNat = a.toInt.toNat + b.toInt.toNat := by omega
  rw [planAdvance_eq (by omega) (by omega), planAdvance_eq ha (by omega), hticks, runTicks_add,
    Action.outcome_bind]
  cases (runTicks cfg (fun _ => false) 0 a.toInt.toNat).outcome w with
  | error e => rfl
  | ok r =>
      -- the second part starts at a world that has another time of the last advance
      have hsecond := (runTicks_commutes (t := some earlier) cfg (fun _ => false) 0 b.toInt.toNat).outcome r.2
      change planOf w now <$>
          (runTicks cfg (fun _ => false) 0 b.toInt.toNat >>= fun rs => pure (r.1 ++ rs)).outcome r.2 =
        planAdvance (r.2.advancedAt (some earlier)) b cfg now >>= fun q =>
          pure ((planOf w earlier r).followedBy q)
      rw [planAdvance_eq hb (by omega), hsecond, Action.outcome_bind]
      cases (runTicks cfg (fun _ => false) 0 b.toInt.toNat).outcome r.2 with
      | error e => rfl
      | ok r' =>
          simp only [Functor.map, Except.map, bind, Except.bind, Action.outcome, pure, EStateM.pure,
            Except.pure, planOf, List.flatMap_append, List.map_append]
          rfl

theorem runTicks_length {cfg : EngineConfig} {done ticks : Nat} {w w' : World}
    {rs : List (TickReport × List Trade)} (h : (runTicks cfg (fun _ => false) done ticks).run w = .ok rs w') :
    rs.length = ticks := by
  induction ticks generalizing done w rs with
  | zero =>
      obtain ⟨rfl, -⟩ := Action.pure_ok.1 h
      rfl
  | succ ticks ih =>
      simp only [runTicks, Bool.false_eq_true, if_false, Action.bind_ok, Action.pure_ok] at h
      obtain ⟨r, w₁, -, rs', _, hrest, rfl, rfl⟩ := h
      rw [List.length_cons, ih hrest]

/-- The plan of a request that nothing stops: as many reports as ticks, and a clock that moved by as many. -/
theorem planAdvance_ok {requested : Int64} {cfg : EngineConfig} {w : World} {now : Timestamp} {p : AdvancePlan}
    (hpos : 0 < requested.toInt) (hmax : requested.toInt ≤ cfg.maxTicksPerRequest.toNat)
    (h : planAdvance w requested cfg now = .ok p) :
    p.expectedLockVersion = w.clock.lockVersion ∧ p.reports.length = requested.toInt ∧
      p.batch.toTick.toNat = p.batch.fromTick.toNat + requested.toInt ∧
      p.batch.next.clock.lockVersion.toNat = w.clock.lockVersion.toNat + requested.toInt := by
  rw [planAdvance_eq hpos hmax] at h
  obtain ⟨⟨rs, w'⟩, hrun, rfl⟩ := Check.map_ok.1 h
  have hrun := Action.outcome_ok.1 hrun
  have hlength := runTicks_length hrun
  obtain ⟨hversion, htick⟩ := runTicks_clock hrun
  have hreports : (planOf w now (rs, w')).reports.length = rs.length := List.length_map _
  refine ⟨rfl, by omega, ?_, ?_⟩
  · change (w'.clock.currentTick.toNat : Int) = w.clock.currentTick.toNat + _
    omega
  · change (w'.clock.lockVersion.toNat : Int) = _
    omega

/-- Batching is invisible. A request for ticks succeeds exactly if its two parts do, one on top of the other,
and fails as the part does that fails. It leads to the same world and reports the same, from the tick and the
version of the first part to the tick of the second, and every tick counts once. -/
theorem batching_invisible (w : World) (cfg : EngineConfig) (earlier now : Timestamp) {a b : Int64}
    (ha : 1 ≤ a.toInt) (hb : 1 ≤ b.toInt) (hmax : a.toInt + b.toInt ≤ cfg.maxTicksPerRequest.toNat) :
    ((∃ p, planAdvance w (a + b) cfg now = .ok p) ↔
        ∃ q r, planAdvance w a cfg earlier = .ok q ∧ planAdvance q.batch.next b cfg now = .ok r) ∧
      (∀ e, planAdvance w (a + b) cfg now = .error e ↔ planAdvance w a cfg earlier = .error e ∨
        ∃ q, planAdvance w a cfg earlier = .ok q ∧ planAdvance q.batch.next b cfg now = .error e) ∧
      ∀ p q r, planAdvance w (a + b) cfg now = .ok p → planAdvance w a cfg earlier = .ok q →
        planAdvance q.batch.next b cfg now = .ok r →
          p.batch.next = r.batch.next ∧ p.batch.trades = q.batch.trades ++ r.batch.trades ∧
          p.reports = q.reports ++ r.reports ∧ p.batch.fromTick = q.batch.fromTick ∧
          p.batch.toTick = r.batch.toTick ∧ p.expectedLockVersion = q.expectedLockVersion ∧
          r.expectedLockVersion = q.batch.next.clock.lockVersion ∧
          p.reports.length = a.toInt + b.toInt ∧
          p.batch.toTick.toNat = p.batch.fromTick.toNat + (a.toInt + b.toInt) ∧
          p.batch.next.clock.lockVersion.toNat = w.clock.lockVersion.toNat + (a.toInt + b.toInt) := by
  have hsum := toInt_add_of_le ha hb hmax
  have happend := planAdvance_append w cfg earlier now ha hb hmax
  refine ⟨?_, ?_, ?_⟩
  · rw [happend]
    simp only [Check.bind_ok, Check.pure_ok]
    constructor
    · rintro ⟨_, q, hq, r, hr, rfl⟩
      exact ⟨q, r, hq, hr⟩
    · rintro ⟨q, r, hq, hr⟩
      exact ⟨_, q, hq, r, hr, rfl⟩
  · intro e
    rw [happend]
    simp only [Check.bind_error, Check.pure_error, and_false, exists_false, or_false]
  · intro p q r hp hq hr
    obtain ⟨-, hreports, hticks, hversion⟩ := planAdvance_ok (by omega) (by omega) hp
    obtain ⟨hexpected, -⟩ := planAdvance_ok (by omega) (by omega) hr
    rw [hsum] at hreports hticks hversion
    rw [happend] at hp
    simp only [hq, hr, Check.bind_ok, Check.pure_ok, Except.ok.injEq, exists_eq_left'] at hp
    subst hp
    exact ⟨rfl, rfl, rfl, rfl, rfl, rfl, hexpected, hreports, hticks, hversion⟩

/-- Three ticks of the busy world in one request, and as one tick followed by two. -/
theorem batching_invisible_busy : ∃ p q r, planAdvance busyWorld 3 busyConfig ⟨60, 0⟩ = .ok p ∧
    planAdvance busyWorld 1 busyConfig ⟨0, 0⟩ = .ok q ∧ planAdvance q.batch.next 2 busyConfig ⟨60, 0⟩ = .ok r ∧
    p.batch.next = r.batch.next ∧ q.batch.trades ≠ [] ∧
    p.batch.trades = q.batch.trades ++ r.batch.trades ∧ p.reports.length = 3 := by
  have hok : (planAdvance busyWorld 3 busyConfig ⟨60, 0⟩).isOk := by decide +kernel
  have htrades : (planAdvance busyWorld 1 busyConfig ⟨0, 0⟩).map (fun q => q.batch.trades.length) = .ok 1 := by
    decide +kernel
  cases hp : planAdvance busyWorld 3 busyConfig ⟨60, 0⟩ with
  | error e =>
      rw [hp] at hok
      cases hok
  | ok p =>
      obtain ⟨hiff, -, hparts⟩ := batching_invisible busyWorld busyConfig ⟨0, 0⟩ ⟨60, 0⟩ (a := 1) (b := 2)
        (by decide) (by decide) (by decide)
      obtain ⟨q, r, hq, hr⟩ := hiff.1 ⟨p, hp⟩
      obtain ⟨hnext, hsum, -, -, -, -, -, hreports, -⟩ := hparts p q r hp hq hr
      refine ⟨p, q, r, rfl, hq, hr, hnext, ?_, hsum, Int.ofNat.inj hreports⟩
      intro hnone
      rw [hq] at htrades
      simp [Except.map, hnone] at htrades

end Mercantile
