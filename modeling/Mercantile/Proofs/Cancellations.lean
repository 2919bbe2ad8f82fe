import Mercantile.Proofs.Batches
import Mercantile.Proofs.Undoing

/-!
Cancellations in any order. A cancellation finds out what is set aside for its entity, gives it back and closes the
entity (`Cancellation.act_ok`). What is set aside for one entity does not depend on what became of another, and what
is given back adds up (`Stake.giveBack_swap`). So cancellations of different entities may trade places, and any
number of them may be carried out in any order (`Cancellation.run_perm`).
-/

namespace Mercantile

/-- On a state that `φ` changed, what commutes with `φ` succeeds where it does without the change. -/
theorem Action.Commutes.ok_iff {σ α : Type} {φ : σ → σ} {x : Action σ α} (hx : x.Commutes φ) {s t : σ} {a : α} :
    x.run (φ s) = .ok a t ↔ ∃ s', x.run s = .ok a s' ∧ t = φ s' := by
  rw [hx s]
  cases x.run s <;> simp [resultMap, and_assoc, eq_comm]

theorem Roster.require_modify_of_ne {α : Type} {kind : EntityKind} [Keyed α kind] {xs : Roster α} {i j : Id kind}
    {f : α → α} (hf : ∀ a, key (f a) = key a) (hij : j ≠ i) : (xs.modify i f).require j = xs.require j := by
  rw [require, get?_modify_of_ne hf hij, require]

namespace Inventory

/-- Additions may trade places. -/
theorem add_swap {inv a b : Inventory} {k l : StockKey} {q p : Quantity} (hk : inv.add k q = .ok a)
    (hl : a.add l p = .ok b) : ∃ c, inv.add l p = .ok c ∧ c.add k q = .ok b := by
  have hak := quantity_add hk
  have hbl := quantity_add hl
  obtain ⟨c, hc⟩ : ∃ c, inv.add l p = .ok c := by
    refine exists_add ?_
    have hlt := (b.quantity l).toNat_lt_size
    have hsum := hbl l
    rw [hak l, if_pos rfl] at hsum
    omega
  refine ⟨c, hc, add_iff_quantity.2 fun m => ?_⟩
  rw [hbl m, hak m, quantity_add hc m]
  omega

end Inventory

/-- The company after a release, with the cash that it has then. -/
def Company.released (amount cash : Cents) (c : Company) : Company := { c with cash, reserved := c.reserved - amount }

namespace Ledger

variable {i j : CompanyId} {amount other : Cents} {w w₁ w₂ : World}

theorem release_released : (release i amount).run w = .ok () w₁ ↔
    ∃ c, w.companies.get? i = some c ∧ (¬ amount < 0 ∧ ¬ c.reserved < amount) ∧
      ∃ cash : Cents, cash.toInt = c.cash.toInt + amount.toInt ∧ w₁ = w.modifyCompany i (.released amount cash) := by
  rw [release_ok]
  simp only [not_or]
  rfl

/-- Releases may trade places, also those of one company: neither amount is negative, so if both are covered
together, each of them is covered alone. -/
theorem release_swap (hi : (release i amount).run w = .ok () w₁) (hj : (release j other).run w₁ = .ok () w₂) :
    ∃ v, (release j other).run w = .ok () v ∧ (release i amount).run v = .ok () w₂ := by
  obtain ⟨c, hc, hcovered, cash, hcash, rfl⟩ := release_released.1 hi
  obtain ⟨d, hd, hcovered', cash', hcash', rfl⟩ := release_released.1 hj
  have hkey (a x : Cents) : ∀ c : Company, key (c.released a x) = key c := fun _ => rfl
  by_cases hij : j = i
  · subst hij
    obtain rfl := Option.some_inj.1 (hd.symm.trans (Roster.get?_modify_found hc (hkey amount cash)))
    change ¬ other < 0 ∧ ¬ c.reserved - amount < other at hcovered'
    change cash'.toInt = cash.toInt + other.toInt at hcash'
    have hreserved := Int64.toInt_sub_of_not_lt hcovered.1 hcovered.2
    have hzero : (0 : Int64).toInt = 0 := by decide
    simp only [Int64.lt_iff_toInt_lt, not_lt, hzero] at hcovered hcovered'
    obtain ⟨first, hfirst⟩ : ∃ first : Cents, first.toInt = c.cash.toInt + other.toInt :=
      Int64.exists_toInt_between (a := c.cash) (b := cash') (by omega) (by omega)
    have hcovers : ¬ other < 0 ∧ ¬ c.reserved < other := by
      simp only [Int64.lt_iff_toInt_lt, not_lt, hzero]
      omega
    have hless := Int64.toInt_sub_of_not_lt hcovers.1 hcovers.2
    refine ⟨_, release_released.2 ⟨c, hc, hcovers, first, hfirst, rfl⟩, release_released.2
      ⟨c.released other first, Roster.get?_modify_found hc (hkey other first), ?_, cash', ?_, ?_⟩⟩
    · change ¬ amount < 0 ∧ ¬ c.reserved - other < amount
      simp only [Int64.lt_iff_toInt_lt, not_lt, hzero]
      omega
    · change cash'.toInt = first.toInt + amount.toInt
      omega
    · simp only [World.modifyCompany, Roster.modify_comp (hkey _ _)]
      refine congrArg (fun companies => { w with companies }) (Roster.modify_congr hc ?_)
      have hreserve : c.reserved - amount - other = c.reserved - other - amount := by grind
      simp only [Function.comp_apply, Company.released, hreserve]
  · have hd' := (Roster.get?_modify_of_ne (hkey amount cash) hij).symm.trans hd
    refine ⟨_, release_released.2 ⟨d, hd', hcovered', cash', hcash', rfl⟩,
      release_released.2 ⟨c, ?_, hcovered, cash, hcash, ?_⟩⟩
    · exact (Roster.get?_modify_of_ne (hkey other cash') (Ne.symm hij)).trans hc
    · simp only [World.modifyCompany]
      rw [Roster.modify_comm (hkey _ _) (hkey _ _) (Ne.symm hij)]

end Ledger

namespace Stake

variable {w w₁ w₂ : World} {s t : Stake}

theorem giveBack_frame (h : s.giveBack.run w = .ok () w₁) :
    w₁ = { w with companies := w₁.companies, inventory := w₁.inventory } := by
  cases s with
  | nothing =>
      obtain ⟨-, rfl⟩ := Action.pure_ok.1 h
      rfl
  | cash company amount => rw [(Ledger.release_moved h).frame]
  | goods place quantity =>
      obtain ⟨inv, -, rfl⟩ := World.addStock_ok.1 h
      rfl

/-- What is set aside for one entity and for another may be given back in either order. -/
theorem giveBack_swap (hs : s.giveBack.run w = .ok () w₁) (ht : t.giveBack.run w₁ = .ok () w₂) :
    ∃ v, t.giveBack.run w = .ok () v ∧ s.giveBack.run v = .ok () w₂ := by
  cases s with
  | nothing =>
      obtain ⟨-, rfl⟩ := Action.pure_ok.1 hs
      exact ⟨w₂, ht, rfl⟩
  | cash i amount =>
      cases t with
      | nothing =>
          obtain ⟨-, rfl⟩ := Action.pure_ok.1 ht
          exact ⟨w, rfl, hs⟩
      | cash j other => exact Ledger.release_swap hs ht
      | goods place quantity =>
          obtain ⟨inv, hinv, rfl⟩ := World.addStock_ok.1 ht
          obtain ⟨c, hc, hcovered, cash, hcash, rfl⟩ := Ledger.release_ok.1 hs
          exact ⟨_, World.addStock_ok.2 ⟨inv, hinv, rfl⟩, Ledger.release_ok.2 ⟨c, hc, hcovered, cash, hcash, rfl⟩⟩
  | goods place quantity =>
      obtain ⟨inv, hinv, rfl⟩ := World.addStock_ok.1 hs
      cases t with
      | nothing =>
          obtain ⟨-, rfl⟩ := Action.pure_ok.1 ht
          exact ⟨w, rfl, hs⟩
      | cash j other =>
          obtain ⟨c, hc, hcovered, cash, hcash, rfl⟩ := Ledger.release_ok.1 ht
          exact ⟨_, Ledger.release_ok.2 ⟨c, hc, hcovered, cash, hcash, rfl⟩, World.addStock_ok.2 ⟨inv, hinv, rfl⟩⟩
      | goods place' quantity' =>
          obtain ⟨inv', hinv', rfl⟩ := World.addStock_ok.1 ht
          obtain ⟨c, hc, hback⟩ := Inventory.add_swap hinv hinv'
          exact ⟨_, World.addStock_ok.2 ⟨c, hc, rfl⟩, World.addStock_ok.2 ⟨inv', hback, rfl⟩⟩

end Stake

/-- What an open order still holds. -/
def Order.held (o : Order) : Except Failure Stake :=
  match o.side with
  | .buy => Stake.cash o.company <$> notional o.price o.remaining
  | .sell => .ok (.goods o.stockKey o.remaining)

/-- What an open contract still holds. -/
def Contract.held (c : Contract) : Except Failure Stake :=
  match c.buyer with
  | some buyer => Stake.cash buyer <$> notional c.price c.outstanding
  | none => .ok .nothing

def Order.cancelled (o : Order) : Order := { o with status := .cancelled }

def Contract.cancelled (c : Contract) : Contract := { c with status := .cancelled }

def Shipment.cancelled (s : Shipment) : Shipment := { s with status := .cancelled }

def Job.cancelled (j : Job) : Job := { j with state := .cancelled }

theorem Order.key_cancelled (o : Order) : key o.cancelled = key o := rfl

theorem Contract.key_cancelled (c : Contract) : key c.cancelled = key c := rfl

theorem Shipment.key_cancelled (s : Shipment) : key s.cancelled = key s := rfl

theorem Job.key_cancelled (j : Job) : key j.cancelled = key j := rfl

/-- A request to cancel an entity. -/
inductive Cancellation
  | order (id : OrderId)
  | contract (id : ContractId)
  | shipment (id : ShipmentId)
  | job (id : JobId)

namespace Cancellation

def act : Cancellation → Action World Unit
  | order id => cancelOrder id
  | contract id => cancelContract id
  | shipment id => cancelShipment id
  | job id => cancelJob id

/-- What is set aside for the entity, if it is there and can be cancelled. -/
def held : Cancellation → World → Except Failure Stake
  | order id, w => cancellableOrder w id >>= Order.held
  | contract id, w => cancellableContract w id >>= Contract.held
  | shipment id, w => (fun s => .goods ⟨s.company, s.origin, s.item⟩ s.quantity) <$> cancellableShipment w id
  | job id, w => do
    let j ← w.jobs.require id
    if !j.state.isActive then throw (.invalidState (.cancelJob id j.state))
    return .nothing

/-- The world with the entity cancelled and nothing else changed. -/
def close : Cancellation → World → World
  | order id, w => w.modifyOrder id .cancelled
  | contract id, w => w.modifyContract id .cancelled
  | shipment id, w => w.modifyShipment id .cancelled
  | job id, w => w.modifyJob id .cancelled

variable {a b c : Cancellation} {w w₁ w₂ : World} {s : Stake}

/-- What is worked out first is given back where it can be. -/
theorem giveBack_ok {x : Except Failure Stake} : (liftM x >>= Stake.giveBack).run w = .ok () w₁ ↔
    ∃ s, x = .ok s ∧ s.giveBack.run w = .ok () w₁ := by
  simp only [Action.bind_ok, Action.lift_ok]
  constructor
  · rintro ⟨s, _, ⟨hs, rfl⟩, hback⟩
    exact ⟨s, hs, hback⟩
  · rintro ⟨s, hs, hback⟩
    exact ⟨s, w, ⟨hs, rfl⟩, hback⟩

theorem releaseOrder_ok {o : Order} : (releaseOrder o).run w = .ok () w₁ ↔
    ∃ s, o.held = .ok s ∧ s.giveBack.run w = .ok () w₁ := by
  have hrelease : releaseOrder o = liftM o.held >>= Stake.giveBack := by
    rw [releaseOrder, Order.held]
    cases o.side with
    | buy => cases notional o.price o.remaining <;> rfl
    | sell => rfl
  rw [hrelease, giveBack_ok]

theorem releaseContract_ok {k : Contract} : (releaseContract k).run w = .ok () w₁ ↔
    ∃ s, k.held = .ok s ∧ s.giveBack.run w = .ok () w₁ := by
  have hrelease : releaseContract k = liftM k.held >>= Stake.giveBack := by
    rw [releaseContract, Contract.held]
    cases k.buyer with
    | some buyer => cases notional k.price k.outstanding <;> rfl
    | none => rfl
  rw [hrelease, giveBack_ok]

/-- A cancellation gives back what is set aside for its entity and closes it. -/
theorem act_ok : c.act.run w = .ok () w₂ ↔
    ∃ s w₁, c.held w = .ok s ∧ s.giveBack.run w = .ok () w₁ ∧ w₂ = c.close w₁ := by
  cases c with
  | order id =>
      simp only [act, cancelOrder, held, close, Action.bind_ok, Action.observe_ok, Action.modify_ok, Check.bind_ok]
      constructor
      · rintro ⟨o, _, ⟨ho, rfl⟩, _, w₁, hrelease, rfl⟩
        obtain ⟨s, hs, hback⟩ := releaseOrder_ok.1 hrelease
        exact ⟨s, w₁, ⟨o, ho, hs⟩, hback, rfl⟩
      · rintro ⟨s, w₁, ⟨o, ho, hs⟩, hback, rfl⟩
        exact ⟨o, w, ⟨ho, rfl⟩, (), w₁, releaseOrder_ok.2 ⟨s, hs, hback⟩, rfl⟩
  | contract id =>
      simp only [act, cancelContract, held, close, Action.bind_ok, Action.observe_ok, Action.modify_ok, Check.bind_ok]
      constructor
      · rintro ⟨k, _, ⟨hk, rfl⟩, _, w₁, hrelease, rfl⟩
        obtain ⟨s, hs, hback⟩ := releaseContract_ok.1 hrelease
        exact ⟨s, w₁, ⟨k, hk, hs⟩, hback, rfl⟩
      · rintro ⟨s, w₁, ⟨k, hk, hs⟩, hback, rfl⟩
        exact ⟨k, w, ⟨hk, rfl⟩, (), w₁, releaseContract_ok.2 ⟨s, hs, hback⟩, rfl⟩
  | shipment id =>
      simp only [act, cancelShipment, held, close, Action.bind_ok, Action.observe_ok, Action.modify_ok, Check.map_ok]
      constructor
      · rintro ⟨sh, _, ⟨hsh, rfl⟩, _, w₁, hadd, rfl⟩
        exact ⟨_, w₁, ⟨sh, hsh, rfl⟩, hadd, rfl⟩
      · rintro ⟨_, w₁, ⟨sh, hsh, rfl⟩, hadd, rfl⟩
        exact ⟨sh, w, ⟨hsh, rfl⟩, (), w₁, hadd, rfl⟩
  | job id =>
      simp only [act, cancelJob, held, close, Action.update_ok, Check.bind_ok, Check.unless_ok, Check.pure_ok]
      constructor
      · rintro ⟨j, hj, hactive, rfl⟩
        exact ⟨.nothing, w, ⟨j, hj, hactive, rfl⟩, rfl, rfl⟩
      · rintro ⟨_, w₁, ⟨j, hj, hactive, rfl⟩, hback, rfl⟩
        obtain ⟨-, rfl⟩ := Action.pure_ok.1 hback
        exact ⟨j, hj, hactive, rfl⟩

/-- Nothing is set aside anew, and nothing is lost, while something else is given back. -/
theorem held_giveBack (h : s.giveBack.run w = .ok () w₁) : c.held w₁ = c.held w := by
  rw [Stake.giveBack_frame h]
  cases c <;> rfl

/-- What is set aside for an entity is not lost by closing another one. -/
theorem held_close (hab : a ≠ b) : b.held (a.close w) = b.held w := by
  cases a <;> cases b <;> try rfl
  all_goals
    rename_i i j
    have hij : j ≠ i := by
      rintro rfl
      exact hab rfl
    simp only [held, cancellableOrder, cancellableContract, cancellableShipment, close]
  case order.order => rw [World.modifyOrder, Roster.require_modify_of_ne Order.key_cancelled hij]
  case contract.contract => rw [World.modifyContract, Roster.require_modify_of_ne Contract.key_cancelled hij]
  case shipment.shipment => rw [World.modifyShipment, Roster.require_modify_of_ne Shipment.key_cancelled hij]
  case job.job => rw [World.modifyJob, Roster.require_modify_of_ne Job.key_cancelled hij]

theorem close_comm (hab : a ≠ b) : b.close (a.close w) = a.close (b.close w) := by
  cases a <;> cases b <;> try rfl
  all_goals
    rename_i i j
    have hij : i ≠ j := by
      rintro rfl
      exact hab rfl
  case order.order =>
      exact congrArg (fun orders => { w with orders }) (Roster.modify_comm Order.key_cancelled Order.key_cancelled hij)
  case contract.contract =>
      exact congrArg (fun contracts => { w with contracts })
        (Roster.modify_comm Contract.key_cancelled Contract.key_cancelled hij)
  case shipment.shipment =>
      exact congrArg (fun shipments => { w with shipments })
        (Roster.modify_comm Shipment.key_cancelled Shipment.key_cancelled hij)
  case job.job =>
      exact congrArg (fun jobs => { w with jobs }) (Roster.modify_comm Job.key_cancelled Job.key_cancelled hij)

theorem giveBack_commutes (s : Stake) (c : Cancellation) : s.giveBack.Commutes c.close := by
  cases s with
  | nothing => exact .pure ()
  | cash i amount =>
      apply Action.Commutes.update
      intro w
      simp only [map_bind, map_pure, apply_ite (Functor.map _)]
      cases c <;> rfl
  | goods place q =>
      apply Action.Commutes.update
      intro w
      simp only [map_bind, map_pure]
      cases c <;> rfl

/-- Cancellations of two entities may trade places. -/
theorem act_swap (hab : a ≠ b) (ha : a.act.run w = .ok () w₁) (hb : b.act.run w₁ = .ok () w₂) :
    ∃ v, b.act.run w = .ok () v ∧ a.act.run v = .ok () w₂ := by
  obtain ⟨s, v₁, hs, hback, rfl⟩ := act_ok.1 ha
  obtain ⟨t, v₂, ht, hafter, rfl⟩ := act_ok.1 hb
  rw [held_close hab, held_giveBack hback] at ht
  obtain ⟨u, hback', rfl⟩ := (giveBack_commutes t a).ok_iff.1 hafter
  obtain ⟨v, hfirst, hsecond⟩ := Stake.giveBack_swap hback hback'
  refine ⟨b.close v, act_ok.2 ⟨t, v, ht, hfirst, rfl⟩, act_ok.2 ⟨s, b.close u, ?_, ?_, close_comm hab⟩⟩
  · rw [held_close hab.symm, held_giveBack hfirst, hs]
  · exact (giveBack_commutes s b).ok_iff.2 ⟨u, hsecond, rfl⟩

/-- Cancellations of different entities may be carried out in any order. -/
theorem run_perm {cs ds : List Cancellation} (hperm : cs.Perm ds) (hcs : cs.Nodup)
    (h : (cs.forM act).run w = .ok () w₂) : (ds.forM act).run w = .ok () w₂ := by
  induction hperm generalizing w with
  | nil => exact h
  | cons c _ ih =>
      obtain ⟨w₁, hfirst, hrest⟩ := Action.forM_cons_ok.1 h
      exact Action.forM_cons_ok.2 ⟨w₁, hfirst, ih hcs.of_cons hrest⟩
  | swap a b cs =>
      obtain ⟨w₁, hfirst, hmore⟩ := Action.forM_cons_ok.1 h
      obtain ⟨v, hsecond, hrest⟩ := Action.forM_cons_ok.1 hmore
      have hba : b ≠ a := by
        rintro rfl
        exact (List.nodup_cons.1 hcs).1 List.mem_cons_self
      obtain ⟨v₁, hfirst', hsecond'⟩ := act_swap hba hfirst hsecond
      exact Action.forM_cons_ok.2 ⟨v₁, hfirst', Action.forM_cons_ok.2 ⟨v, hsecond', hrest⟩⟩
  | trans hperm _ ih ih' => exact ih' (hperm.nodup_iff.1 hcs) (ih hcs h)

end Cancellation

/-- Two cancellations of different entities leave the same world in either order, whoever comes first: if they
succeed in one order, they do in the other. That holds of every world, whether or not its identifiers ascend. -/
theorem cancellations_commute {a b : Cancellation} {w w' : World} (hab : a ≠ b)
    (h : (do a.act; b.act).run w = .ok () w') : (do b.act; a.act).run w = .ok () w' := by
  obtain ⟨_, w₁, ha, hb⟩ := Action.bind_ok.1 h
  obtain ⟨v, hfirst, hsecond⟩ := Cancellation.act_swap hab ha hb
  exact Action.bind_ok.2 ⟨(), v, hfirst, hsecond⟩

/-- An order and a contract of the smith's: what is reserved is needed for both, and both amounts come back. -/
theorem cancellations_commute_smith : Cancellation.order ⟨11⟩ ≠ .contract ⟨13⟩ ∧
    ∃ w', (do Cancellation.act (.order ⟨11⟩); Cancellation.act (.contract ⟨13⟩)).run busyWorld = .ok () w' ∧
      w'.companies.get? ⟨7⟩ = some ⟨⟨7⟩, "smith", 616, 0, false⟩ ∧
      (do Cancellation.act (.contract ⟨13⟩); Cancellation.act (.order ⟨11⟩)).run busyWorld = .ok () w' := by
  have hcompany : (Action.outcome (do Cancellation.act (.order ⟨11⟩); Cancellation.act (.contract ⟨13⟩))
      busyWorld).map (·.2.companies.get? ⟨7⟩) = .ok (some ⟨⟨7⟩, "smith", 616, 0, false⟩) := by decide +kernel
  obtain ⟨⟨_, w'⟩, hrun, hcompany⟩ := Check.map_ok.1 hcompany
  have hdone := Action.outcome_ok.1 hrun
  exact ⟨nofun, w', hdone, hcompany.symm, cancellations_commute nofun hdone⟩

end Mercantile
