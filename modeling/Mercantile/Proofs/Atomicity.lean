import Mercantile.Proofs.Preflights

/-!
Failing commands. An operation is atomic if its failures leave the state as it was. A single step is atomic, and
so is a question followed by something atomic; what comes after the last step that may fail must not fail at all.
Of the nine commands five are built in this way, and the other four draw an identifier after they have set
something aside: they are atomic as long as there is one to draw (`failed_command_unchanged`).
-/

namespace Mercantile

namespace Action

variable {σ α β : Type}

/-- Whatever the state, a failure leaves it as it was. -/
def Atomic (x : Action σ α) : Prop := ∀ ⦃s s' : σ⦄ ⦃e : Failure⦄, x.run s = .error e s' → s' = s

namespace Atomic

theorem pure (a : α) : Atomic (pure a : Action σ α) := by
  intro s s' e h
  cases h

theorem transact (f : σ → Except Failure (α × σ)) : Atomic (Action.transact f) := by
  intro s s' e h
  exact (transact_error.1 h).2

theorem update (f : σ → Except Failure σ) : Atomic (Action.update f) := by
  intro s s' e h
  exact (update_error.1 h).2

/-- What is only asked cannot have changed anything yet. -/
theorem observe_bind {f : σ → Except Failure α} {k : α → Action σ β} (hk : ∀ a, Atomic (k a)) :
    Atomic (observe f >>= k) := by
  intro s s' e h
  rcases bind_error.1 h with hf | ⟨a, s₁, hf, hrest⟩
  · exact (observe_error.1 hf).2
  · obtain ⟨-, rfl⟩ := observe_ok.1 hf
    exact hk a hrest

/-- Marking an entity after the last step that may fail cannot fail. -/
theorem bind_modify {x : Action σ Unit} (hx : Atomic x) (f : σ → σ) : Atomic (x >>= fun _ => modify f) := by
  intro s s' e h
  rcases bind_error.1 h with hfail | ⟨u, s₁, -, hmark⟩
  · exact hx hfail
  · cases hmark

end Atomic

end Action

variable {w w' : World} {e : Failure}

theorem releaseOrder_atomic (o : Order) : Action.Atomic (releaseOrder o) := by
  unfold releaseOrder
  split
  · apply Action.Atomic.observe_bind
    intro amount
    exact Action.Atomic.update _
  · exact Action.Atomic.update _

theorem cancelOrder_atomic (id : OrderId) : Action.Atomic (cancelOrder id) := by
  apply Action.Atomic.observe_bind
  intro o
  exact (releaseOrder_atomic o).bind_modify _

theorem releaseContract_atomic (c : Contract) : Action.Atomic (releaseContract c) := by
  unfold releaseContract
  split
  · apply Action.Atomic.observe_bind
    intro amount
    exact Action.Atomic.update _
  · exact Action.Atomic.pure _

theorem cancelContract_atomic (id : ContractId) : Action.Atomic (cancelContract id) := by
  apply Action.Atomic.observe_bind
  intro c
  exact (releaseContract_atomic c).bind_modify _

theorem cancelShipment_atomic (id : ShipmentId) : Action.Atomic (cancelShipment id) := by
  apply Action.Atomic.observe_bind
  intro sh
  exact Action.Atomic.bind_modify (Action.Atomic.update _) _

/-- While there are identifiers, all that can stop a plan from being carried out stops it at once. -/
theorem Preflight.unchanged {α : Type} {kind : EntityKind} {plan : Except Failure α} {stake : α → Stake}
    {append : α → Id kind → World → World} {act : Action World (Id kind)}
    (hpre : Preflight w plan stake append act) (hroom : w.nextId.toNat + 1 < UInt64.size)
    (h : act.run w = .error e w') : w' = w := by
  cases hplan : plan with
  | error cause =>
      have hrefused := hpre.refused cause hplan
      rw [h] at hrefused
      cases hrefused
      rfl
  | ok p =>
      by_cases hover : (stake p).Overflows w
      · have hstopped := hpre.overflows p hplan hover
        rw [h] at hstopped
        cases hstopped
        rfl
      · obtain ⟨id, w₁, -, -, hdone⟩ := hpre.done p hplan hover hroom
        rw [h] at hdone
        cases hdone

/-- Whatever the world, a command that fails leaves it as it was, as long as there are identifiers left. -/
theorem failed_command_unchanged (cfg : EngineConfig) (c : Command) (hroom : w.nextId.toNat + 1 < UInt64.size)
    (h : (c.act cfg).run w = .error e w') : w' = w := by
  cases c with
  | placeOrder r => exact (placeOrder_preflight r).unchanged hroom (Action.map_error.1 h)
  | cancelOrder id => exact cancelOrder_atomic id h
  | createContract r => exact (createContract_preflight r).unchanged hroom (Action.map_error.1 h)
  | cancelContract id => exact cancelContract_atomic id h
  | startJob r => exact (startJob_preflight r).unchanged hroom (Action.map_error.1 h)
  | cancelJob id => exact Action.Atomic.update _ h
  | createShipment r => exact (createShipment_preflight r cfg.logistics).unchanged hroom (Action.map_error.1 h)
  | cancelShipment id => exact cancelShipment_atomic id h
  | setAllocation a => exact Action.Atomic.update _ h

/-- A world in which less is reserved for the smith than its bid needs: the bid cannot be cancelled, and stays
open. -/
theorem failed_command_unchanged_short :
    let short : World := { busyWorld with
      companies := busyWorld.companies.modify ⟨7⟩ fun c => { c with reserved := 99 } }
    ∃ w', ((Command.cancelOrder ⟨11⟩).act busyConfig).run short =
        .error (.insufficientFunds ⟨7⟩ 100 99) w' ∧ w' = short := by
  intro short
  obtain ⟨w', hrun⟩ : ∃ w', ((Command.cancelOrder ⟨11⟩).act busyConfig).run short =
      .error (.insufficientFunds ⟨7⟩ 100 99) w' :=
    Action.outcome_error.1 (by decide +kernel)
  exact ⟨w', hrun, failed_command_unchanged busyConfig (.cancelOrder ⟨11⟩) (by decide) hrun⟩

end Mercantile
