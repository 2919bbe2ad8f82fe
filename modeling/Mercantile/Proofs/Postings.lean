import Mercantile.Proofs.Atomicity

/-!
Postings, the movements of cash that the ledger's helpers make, and what is left of one that fails. Most
failures come before any change. A credit or a charge changes the company first and the record of flows after
that: where the record is no word any more the company has its new cash already, and nothing is recorded of it
(`Torn`). No other failure leaves a trace (`torn_iff_left_changed`).
-/

namespace Mercantile

variable {s s' : Account} {e : Failure}

namespace Account

theorem onWorld_atomic {α : Type} {x : Action World α} (hx : x.Atomic) : (onWorld x).Atomic := by
  intro s s' e h
  obtain ⟨w, hfail, rfl⟩ := Action.zoom_error.1 h
  obtain rfl := hx hfail
  rfl

/-- A change of the world that is recorded afterwards fails with nothing done, or with the first half done. -/
theorem recorded_error {x : Action World Unit} {y : Action CashFlows Unit} (hx : x.Atomic) (hy : y.Atomic) :
    (onWorld x >>= fun _ => onFlows y).run s = .error e s' ↔
      x.run s.world = .error e s.world ∧ s' = s ∨
        ∃ w, x.run s.world = .ok () w ∧ y.run s.flows = .error e s.flows ∧ s' = { s with world := w } := by
  rw [Action.bind_error]
  apply or_congr
  · constructor
    · intro h
      obtain ⟨w, hfail, rfl⟩ := Action.zoom_error.1 h
      obtain rfl := hx hfail
      exact ⟨hfail, rfl⟩
    · rintro ⟨hfail, rfl⟩
      exact Action.zoom_error.2 ⟨_, hfail, rfl⟩
  · constructor
    · rintro ⟨_, t, hdone, h⟩
      obtain ⟨w, hw, rfl⟩ := onWorld_ok.1 hdone
      obtain ⟨f, hfail, rfl⟩ := Action.zoom_error.1 h
      obtain rfl := hy hfail
      exact ⟨w, hw, hfail, rfl⟩
    · rintro ⟨w, hw, hfail, rfl⟩
      exact ⟨(), _, onWorld_ok.2 ⟨w, hw, rfl⟩, Action.zoom_error.2 ⟨_, hfail, rfl⟩⟩

end Account

namespace CashFlows

/-- A flow with an amount added to it is no word. -/
def Overflows (flow amount : Cents) : Prop :=
  flow.toInt + amount.toInt < Int64.minValue.toInt ∨ Int64.maxValue.toInt < flow.toInt + amount.toInt

/-- Only a flow that changes can overflow. -/
theorem Overflows.ne_zero {flow amount : Cents} (h : Overflows flow amount) : amount.toInt ≠ 0 := by
  have hlow := flow.minValue_le_toInt
  have hhigh := flow.toInt_le
  unfold Overflows at h
  omega

variable {f : CashFlows} {amount : Cents}

theorem recordInflow_error : (recordInflow amount).run f = .error e f ↔
    Overflows f.inflow amount ∧ e = .overflow .exogenousInflow := by
  simp only [recordInflow, Action.update_error, Check.bind_error, orFail_error, Check.pure_error, and_false,
    exists_false, or_false, and_true, Int64.add?, Int64.ofInt?_eq_none, Overflows]

theorem recordOutflow_error : (recordOutflow amount).run f = .error e f ↔
    Overflows f.outflow amount ∧ e = .overflow .exogenousOutflow := by
  simp only [recordOutflow, Action.update_error, Check.bind_error, orFail_error, Check.pure_error, and_false,
    exists_false, or_false, and_true, Int64.add?, Int64.ofInt?_eq_none, Overflows]

end CashFlows

/-- A company has `change` more in cash than before, which no flow accounts for. -/
structure Torn (i : CompanyId) (change : Int) (s s' : Account) : Prop where
  nonzero : change ≠ 0
  posted : ∃ c cash, s.world.companies.get? i = some c ∧ cash.toInt = c.cash.toInt + change ∧
    s' = { s with world := s.world.modifyCompany i fun c => { c with cash } }

theorem Torn.changed {i : CompanyId} {change : Int} (h : Torn i change s s') : s' ≠ s := by
  obtain ⟨hnonzero, c, cash, hc, hcash, rfl⟩ := h
  intro hsame
  have hfound : (s.world.modifyCompany i fun c => { c with cash }).companies.get? i = some { c with cash } :=
    Roster.get?_modify_found hc fun _ => rfl
  have hworld : (s.world.modifyCompany i fun c => { c with cash }) = s.world := congrArg Account.world hsame
  rw [hworld, hc, Option.some_inj] at hfound
  have hkept : c.cash = cash := congrArg Company.cash hfound
  rw [hkept] at hcash
  omega

/-- A change of cash is done, and the failure to record it leaves it so. -/
theorem torn_of_changeCash (figure : Figure) {i : CompanyId} {f : Cents → Option Cents} {change : Int}
    (hf : ∀ a b, f a = some b ↔ b.toInt = a.toInt + change) (hnonzero : change ≠ 0) :
    (∃ w, (Ledger.changeCash i f figure).run s.world = .ok () w ∧ s' = { s with world := w }) ↔
      Torn i change s s' := by
  constructor
  · rintro ⟨w, hw, rfl⟩
    obtain ⟨c, hc, cash, hcash, rfl⟩ := Ledger.changeCash_ok.1 hw
    exact ⟨hnonzero, c, cash, hc, (hf _ _).1 hcash, rfl⟩
  · rintro ⟨-, c, cash, hc, hcash, rfl⟩
    exact ⟨_, Ledger.changeCash_ok.2 ⟨c, hc, cash, (hf _ _).2 hcash, rfl⟩, rfl⟩

/-- A recorded change of cash that fails leaves something changed where the change is possible and its record is
not. -/
theorem recorded_changed {i : CompanyId} {f : Cents → Option Cents} {figure : Figure} {change : Int}
    {record : Action CashFlows Unit} {Lost : Prop} {cause : Failure} (hrecord : record.Atomic)
    (hlost : ∀ e, record.run s.flows = .error e s.flows ↔ Lost ∧ e = cause)
    (hf : ∀ a b, f a = some b ↔ b.toInt = a.toInt + change) (hnonzero : Lost → change ≠ 0) :
    ((Account.onWorld (Ledger.changeCash i f figure) >>= fun _ => Account.onFlows record).run s = .error e s' ∧
        s' ≠ s) ↔ Lost ∧ e = cause ∧ Torn i change s s' := by
  have hchange : (Ledger.changeCash i f figure).Atomic := Action.Atomic.update _
  rw [Account.recorded_error hchange hrecord]
  constructor
  · rintro ⟨⟨-, hsame⟩ | ⟨w, hw, hfail, rfl⟩, hchanged⟩
    · exact absurd hsame hchanged
    · obtain ⟨hover, rfl⟩ := (hlost e).1 hfail
      exact ⟨hover, rfl, (torn_of_changeCash figure hf (hnonzero hover)).1 ⟨w, hw, rfl⟩⟩
  · rintro ⟨hover, rfl, htorn⟩
    obtain ⟨w, hw, rfl⟩ := (torn_of_changeCash figure hf (hnonzero hover)).2 htorn
    exact ⟨Or.inr ⟨w, hw, (hlost _).2 ⟨hover, rfl⟩, rfl⟩, htorn.changed⟩

/-- A movement of cash by one of the ledger's helpers. -/
inductive Posting
  | reserve (company : CompanyId) (amount : Cents)
  | release (company : CompanyId) (amount : Cents)
  | settle (buyer seller : CompanyId) (reservedPrice price : Cents) (quantity : Quantity)
  | credit (company : CompanyId) (amount : Cents)
  | charge (company : CompanyId) (amount : Cents)

namespace Posting

/-- Carries out a posting; the amounts that a settlement answers with are dropped. -/
def act : Posting → Action Account Unit
  | reserve i amount => Account.onWorld (Ledger.reserve i amount)
  | release i amount => Account.onWorld (Ledger.release i amount)
  | settle buyer seller reservedPrice price quantity =>
    (fun _ => ()) <$> Account.onWorld (Ledger.settle buyer seller reservedPrice price quantity)
  | credit i amount => Ledger.credit i amount
  | charge i amount => Ledger.charge i amount

/-- The posting is a credit or a charge that fails because its flow overflows, after the company was changed. -/
def Tears (s : Account) (e : Failure) (s' : Account) : Posting → Prop
  | credit i amount => CashFlows.Overflows s.flows.inflow amount ∧ e = .overflow .exogenousInflow ∧
    Torn i amount.toInt s s'
  | charge i amount => CashFlows.Overflows s.flows.outflow amount ∧ e = .overflow .exogenousOutflow ∧
    Torn i (-amount.toInt) s s'
  | _ => False

end Posting

/-- A posting that fails leaves world and flows as they were, but for a credit or a charge whose flow overflows:
there, and only there, the company's cash has been changed, by the whole amount. -/
theorem torn_iff_left_changed (p : Posting) (s s' : Account) (e : Failure) :
    (p.act.run s = .error e s' ∧ s' ≠ s) ↔ p.Tears s e s' := by
  have hatomic {x : Action Account Unit} (hx : x.Atomic) : (x.run s = .error e s' ∧ s' ≠ s) ↔ False :=
    iff_false_intro fun h => h.2 (hx h.1)
  cases p with
  | reserve i amount => exact hatomic (Account.onWorld_atomic (Action.Atomic.update _))
  | release i amount => exact hatomic (Account.onWorld_atomic (Action.Atomic.update _))
  | settle buyer seller reservedPrice price quantity =>
      apply hatomic
      intro t t' e h
      exact Account.onWorld_atomic (Action.Atomic.transact _) (Action.map_error.1 h)
  | credit i amount =>
      exact recorded_changed (Action.Atomic.update _) (fun e => CashFlows.recordInflow_error)
        (fun a b => Int64.add?_eq_some) fun h => h.ne_zero
  | charge i amount =>
      refine recorded_changed (Action.Atomic.update _) (fun e => CashFlows.recordOutflow_error)
        (fun a b => ?_) fun h => ?_
      · rw [Int64.sub?_eq_some, Int.sub_eq_add_neg]
      · have := h.ne_zero
        omega

/-- Two bots, of which the mine has been given all that an account of flows can hold. -/
def richMine : Account :=
  ⟨{ World.empty with
      companies := [⟨⟨1⟩, "mine", Int64.maxValue, 0, true⟩, ⟨⟨2⟩, "smith", 0, 0, true⟩], nextId := 2 },
    ⟨Int64.maxValue, 0⟩⟩

/-- A cent for the smith is then refused, and the smith has it all the same. -/
theorem refused_credit_kept : ∃ s', (Posting.credit ⟨2⟩ 1).act.run richMine = .error (.overflow .exogenousInflow) s' ∧
    s'.flows = richMine.flows ∧ (richMine.world.companies.get? ⟨2⟩).map (·.cash) = some 0 ∧
    (s'.world.companies.get? ⟨2⟩).map (·.cash) = some 1 := by
  let paid : World := { richMine.world with
    companies := [⟨⟨1⟩, "mine", Int64.maxValue, 0, true⟩, ⟨⟨2⟩, "smith", 1, 0, true⟩] }
  have hpaid : (Ledger.changeCash ⟨2⟩ (·.add? 1) .cash).run richMine.world = .ok () paid :=
    Action.outcome_ok.1 (by decide +kernel)
  have hlost : (CashFlows.recordInflow 1).run richMine.flows = .error (.overflow .exogenousInflow) richMine.flows :=
    CashFlows.recordInflow_error.2 ⟨Or.inr (by decide), rfl⟩
  have hrun := (Account.recorded_error (Action.Atomic.update _) (Action.Atomic.update _)).2
    (Or.inr ⟨paid, hpaid, hlost, rfl⟩)
  exact ⟨{ richMine with world := paid }, hrun, rfl, by decide +kernel, by decide +kernel⟩

end Mercantile
