import Mathlib.Algebra.Order.BigOperators.Group.List
import Mathlib.Data.List.Induction
import Mercantile.Proofs.Soundness

/-!
What an audit finds. Debts are added up company by company in words of 128 bits, and an audit has a result exactly
if every sum on the way fits (`World.DebtsFit`); what a company owes is then the exact sum (`World.owed_ok`). A report
is what a sink has taken of the issues of a world (`Sink.fill`), so a limit only cuts their list off. There are no
issues exactly if the ledger is in order (`World.Orderly`), and in a sound world there are none but sums that overflow
(`World.Sound.audit`).
-/

namespace Mercantile

/-- Every sum on the way is an amount where the amounts are added up from the first to the last. -/
def SumsFit (cs : List Cents) : Prop :=
  ∀ p, p <+: cs → -2 ^ 63 ≤ (p.map (·.toInt)).sum ∧ (p.map (·.toInt)).sum < 2 ^ 63

theorem ofInt?_isSome {n : Int} : (Int64.ofInt? n).isSome ↔ -2 ^ 63 ≤ n ∧ n < 2 ^ 63 := by
  rw [← Option.ne_none_iff_isSome, ne_eq, Int64.ofInt?_eq_none, Int64.toInt_minValue, Int64.toInt_maxValue]
  omega

/-- What is true of every sum on the way through a list is true of the start and of every sum on the way through the
rest. -/
theorem forall_prefix_cons {α : Type} {P : Int → Prop} {f : α → Int} {start : Int} {x : α} {xs : List α} :
    (∀ p, p <+: x :: xs → P (start + (p.map f).sum)) ↔
      P start ∧ ∀ p, p <+: xs → P (start + f x + (p.map f).sum) := by
  constructor
  · intro h
    constructor
    · have hnil := h [] List.nil_prefix
      rwa [List.map_nil, List.sum_nil, Int.add_zero] at hnil
    · intro p hp
      rw [Int.add_assoc, ← List.sum_cons, ← List.map_cons]
      exact h (x :: p) (List.cons_prefix_cons.2 ⟨rfl, hp⟩)
  · rintro ⟨hstart, hrest⟩ p hp
    rcases List.prefix_cons_iff.1 hp with rfl | ⟨q, rfl, hq⟩
    · rwa [List.map_nil, List.sum_nil, Int.add_zero]
    · rw [List.map_cons, List.sum_cons, ← Int.add_assoc]
      exact hrest q hq

theorem World.checkedSum_isSome {cs : List Cents} : (checkedSum cs).isSome ↔ SumsFit cs := by
  suffices hfold : ∀ start : Cents, (cs.foldlM Int64.add? start).isSome ↔
      ∀ p, p <+: cs → (Int64.ofInt? (start.toInt + (p.map (·.toInt)).sum)).isSome by
    have hzero := hfold 0
    rw [Int64.toInt_zero] at hzero
    simpa only [checkedSum, SumsFit, Int.zero_add, ofInt?_isSome] using hzero
  have hstart (start : Cents) : (Int64.ofInt? start.toInt).isSome := by
    rw [Int64.ofInt?_eq_some.2 rfl, Option.isSome_some]
  induction cs with
  | nil =>
      refine fun start => iff_of_true rfl fun p hp => ?_
      rw [List.prefix_nil.1 hp, List.map_nil, List.sum_nil, Int.add_zero]
      exact hstart start
  | cons c cs ih =>
      intro start
      rw [List.foldlM_cons, Option.bind_eq_bind, forall_prefix_cons (P := fun n => (Int64.ofInt? n).isSome),
        and_iff_right (hstart start)]
      cases hnext : start.add? c with
      | none =>
          refine iff_of_false nofun fun h => ?_
          have hc := h [] List.nil_prefix
          rw [List.map_nil, List.sum_nil, Int.add_zero, ← Int64.add?, hnext] at hc
          cases hc
      | some next => rw [Option.bind_some, ih next, Int64.add?_eq_some.1 hnext]

/-- What a word of 128 bits holds. -/
def Wide (n : Int) : Prop := -2 ^ 127 ≤ n ∧ n < 2 ^ 127

instance (n : Int) : Decidable (Wide n) := inferInstanceAs (Decidable (-2 ^ 127 ≤ n ∧ n < 2 ^ 127))

theorem wideAdd?_eq_some {a b c : Int} : wideAdd? a b = some c ↔ Wide (a + b) ∧ c = a + b := by
  have hmax : wideMax = 2 ^ 127 - 1 := rfl
  have hfits : (-wideMax - 1 ≤ a + b ∧ a + b ≤ wideMax) ↔ Wide (a + b) := by
    rw [Wide]
    omega
  rw [wideAdd?, Option.ite_none_right_eq_some, Option.some_inj, hfits, eq_comm (a := a + b)]

theorem addDebt_ok {owed owed' : CompanyId → Int} {d : CompanyId × Int} : addDebt owed d = .ok owed' ↔
    Wide (owed d.1 + d.2) ∧ owed' = fun i => owed i + if i = d.1 then d.2 else 0 := by
  have hadded : (fun i => if i = d.1 then owed d.1 + d.2 else owed i) = fun i => owed i + if i = d.1 then d.2 else 0 := by
    funext i
    split
    · next hi => rw [hi]
    · exact (Int.add_zero _).symm
  simp only [addDebt, Check.bind_ok, orFail_ok, wideAdd?_eq_some, Check.pure_ok]
  constructor
  · rintro ⟨total, ⟨hfits, rfl⟩, rfl⟩
    exact ⟨hfits, hadded⟩
  · rintro ⟨hfits, rfl⟩
    exact ⟨_, ⟨hfits, rfl⟩, hadded.symm⟩

/-- What a company owes, one debt after the other. -/
def debtsOf (i : CompanyId) (ds : List (CompanyId × Int)) : List Int := (ds.filter (·.1 = i)).map (·.2)

theorem debtsOf_cons (i : CompanyId) (d : CompanyId × Int) (ds : List (CompanyId × Int)) :
    debtsOf i (d :: ds) = if i = d.1 then d.2 :: debtsOf i ds else debtsOf i ds := by
  by_cases hi : i = d.1
  · rw [debtsOf, List.filter_cons_of_pos (by rw [hi]; exact decide_eq_true rfl), if_pos hi]
    rfl
  · rw [debtsOf, List.filter_cons_of_neg (by simpa using Ne.symm hi), if_neg hi]
    rfl

/-- A debt moves the start of its company's sums, and those of nobody else. -/
theorem forall_prefix_debtsOf {i : CompanyId} {d : CompanyId × Int} {ds : List (CompanyId × Int)} {start : Int}
    (hstart : Wide start) : (∀ p, p <+: debtsOf i (d :: ds) → Wide (start + p.sum)) ↔
      ∀ p, p <+: debtsOf i ds → Wide (start + (if i = d.1 then d.2 else 0) + p.sum) := by
  rw [debtsOf_cons]
  split
  · have hcons : (∀ p, p <+: d.2 :: debtsOf i ds → Wide (start + (p.map id).sum)) ↔
        Wide start ∧ ∀ p, p <+: debtsOf i ds → Wide (start + d.2 + (p.map id).sum) := forall_prefix_cons
    simp only [List.map_id] at hcons
    rw [hcons, and_iff_right hstart]
  · rw [Int.add_zero]

theorem add_sum_debtsOf (start : Int) (i : CompanyId) (d : CompanyId × Int) (ds : List (CompanyId × Int)) :
    start + (debtsOf i (d :: ds)).sum = start + (if i = d.1 then d.2 else 0) + (debtsOf i ds).sum := by
  rw [debtsOf_cons]
  split
  · rw [List.sum_cons, Int.add_assoc]
  · rw [Int.add_zero]

/-- The debts of all companies are added up together exactly if each company's own sums fit. -/
theorem foldlM_addDebt_ok {ds : List (CompanyId × Int)} {owed owed' : CompanyId → Int}
    (hstart : ∀ i, Wide (owed i)) : ds.foldlM addDebt owed = .ok owed' ↔
      (∀ i p, p <+: debtsOf i ds → Wide (owed i + p.sum)) ∧ owed' = fun i => owed i + (debtsOf i ds).sum := by
  induction ds generalizing owed with
  | nil =>
      have hfits (i : CompanyId) (p : List Int) (hp : p <+: debtsOf i []) : Wide (owed i + p.sum) := by
        rw [List.prefix_nil.1 hp, List.sum_nil, Int.add_zero]
        exact hstart i
      have hsum : (fun i => owed i + (debtsOf i []).sum) = owed := funext fun i => Int.add_zero _
      rw [List.foldlM_nil, Check.pure_ok, and_iff_right hfits, hsum]
  | cons d ds ih =>
      simp only [List.foldlM_cons, Check.bind_ok, forall_prefix_debtsOf (hstart _), add_sum_debtsOf]
      have hnext (hfits : Wide (owed d.1 + d.2)) (i : CompanyId) : Wide (owed i + if i = d.1 then d.2 else 0) := by
        split
        · next hi => exact hi ▸ hfits
        · rw [Int.add_zero]
          exact hstart i
      constructor
      · rintro ⟨next, hadded, hrest⟩
        obtain ⟨hfits, rfl⟩ := addDebt_ok.1 hadded
        exact (ih (hnext hfits)).1 hrest
      · rintro ⟨hfits, hsums⟩
        have hfirst : Wide (owed d.1 + d.2) := by
          have hnil := hfits d.1 [] List.nil_prefix
          rwa [if_pos rfl, List.sum_nil, Int.add_zero] at hnil
        exact ⟨_, addDebt_ok.2 ⟨hfirst, rfl⟩, (ih (hnext hfirst)).2 ⟨hfits, hsums⟩⟩

theorem foldlM_addDebt_error {ds : List (CompanyId × Int)} {owed : CompanyId → Int} {e : Failure}
    (h : ds.foldlM addDebt owed = .error e) : e = .undefined := by
  induction ds generalizing owed with
  | nil => cases h
  | cons d ds ih =>
      rw [List.foldlM_cons] at h
      rcases Check.bind_error.1 h with h | ⟨next, -, h⟩
      · rcases Check.bind_error.1 h with h | ⟨total, -, h⟩
        · exact (orFail_error.1 h).2
        · cases h
      · exact ih h

namespace World

variable {w : World}

/-- Every sum on the way fits a word of 128 bits where the debts of each company are added up from the first to the
last. -/
def DebtsFit (w : World) : Prop :=
  ∀ i p, p <+: debtsOf i w.debts → Wide p.sum

theorem debtsOf_debts (w : World) (i : CompanyId) : debtsOf i w.debts =
    (w.orders.filter (·.company = i)).map (·.obligation) ++
      (w.contracts.filter (·.buyer = some i)).map (·.obligation) := by
  have horders (os : List Order) : debtsOf i (os.map fun o => (o.company, o.obligation)) =
      (os.filter (·.company = i)).map (·.obligation) := by
    rw [debtsOf, List.filter_map, List.map_map]
    rfl
  have hcontracts (cs : List Contract) : debtsOf i (cs.filterMap fun c => c.buyer.map (·, c.obligation)) =
      (cs.filter (·.buyer = some i)).map (·.obligation) := by
    induction cs with
    | nil => rfl
    | cons c cs ih =>
        cases hbuyer : c.buyer with
        | none => simp [hbuyer, ih]
        | some b =>
            rw [List.filterMap_cons]
            simp only [hbuyer, Option.map_some, debtsOf_cons, ih, List.filter_cons, Option.some_inj]
            by_cases hi : b = i
            · simp [hi]
            · simp [hi, Ne.symm hi]
  rw [debts, debtsOf, List.filter_append, List.map_append, ← debtsOf, ← debtsOf, horders, hcontracts]

theorem sum_debtsOf (w : World) (i : CompanyId) : (debtsOf i w.debts).sum = w.obligations i := by
  rw [debtsOf_debts, List.sum_append, obligations, List.sum_eq_foldr, List.sum_eq_foldr]

/-- What a company owes is added up to the exact sum, or not at all. -/
theorem owed_ok {owed : CompanyId → Int} : w.owed = .ok owed ↔ w.DebtsFit ∧ owed = w.obligations := by
  rw [World.owed, foldlM_addDebt_ok fun _ => by decide]
  simp only [Int.zero_add, sum_debtsOf]
  rfl

theorem owed_error {e : Failure} : w.owed = .error e ↔ ¬ w.DebtsFit ∧ e = .undefined := by
  cases howed : w.owed with
  | ok owed => simp [(owed_ok.1 howed).1]
  | error e' =>
      obtain rfl := foldlM_addDebt_error howed
      have hfit : ¬ w.DebtsFit := by
        intro hfit
        rw [owed_ok.2 ⟨hfit, rfl⟩] at howed
        cases howed
      simp [hfit, eq_comm]

end World

/-- Takes issues up to a limit, and beyond it keeps only that there were more. -/
structure Sink where
  limit : Nat
  issues : List Issue
  truncated : Bool

namespace Sink

def push (s : Sink) (i : Issue) : Sink :=
  if s.issues.length < s.limit then { s with issues := s.issues ++ [i] } else { s with truncated := true }

/-- What a sink has taken after a list of issues is the beginning of the list, up to the limit. -/
theorem fill (limit : Nat) (is : List Issue) :
    is.foldl push ⟨limit, [], false⟩ = ⟨limit, is.take limit, decide (limit < is.length)⟩ := by
  induction is using List.reverseRecOn with
  | nil => simp
  | append_singleton is i ih =>
      rw [List.foldl_concat, ih, push]
      simp only [List.length_take, List.length_append, List.length_singleton]
      split
      · next hroom =>
        have hshort : (is ++ [i]).length ≤ limit := by
          rw [List.length_append, List.length_singleton]
          omega
        rw [List.take_of_length_le (by omega), List.take_of_length_le hshort, decide_eq_false (by omega),
          decide_eq_false (by omega)]
      · next hfull =>
        rw [List.take_append_of_le_length (by omega), decide_eq_true (by omega : limit < is.length + 1)]

end Sink

namespace World

variable {w : World}

/-- A ledger in order: every sum is an amount, no reserved cash is below zero and all of it is what is owed, nothing
is open or delivered beyond what was agreed, and allocations are wholes. -/
structure Orderly (w : World) : Prop where
  cash : SumsFit (w.companies.map (·.cash))
  reserved : SumsFit (w.companies.map (·.reserved))
  nonneg : ∀ c ∈ w.companies, 0 ≤ c.reserved.toInt
  remaining : ∀ o ∈ w.orders, o.remaining.toNat ≤ o.quantity.toNat
  filled : ∀ o ∈ w.orders, o.status = .filled ↔ o.remaining = 0
  fulfilled : ∀ c ∈ w.contracts, c.fulfilled.toNat ≤ c.quantity.toNat
  backed : ∀ c ∈ w.companies, c.reserved.toInt = w.obligations c.id
  whole : ∀ a ∈ w.allocations,
    a.operations.toNat + a.research.toNat + a.logistics.toNat + a.corporate.toNat = 100

theorem sumIssues_eq_nil : w.sumIssues = [] ↔
    SumsFit (w.companies.map (·.cash)) ∧ SumsFit (w.companies.map (·.reserved)) := by
  rw [← checkedSum_isSome, ← checkedSum_isSome, ← sumCash?, ← sumReserved?, sumIssues]
  cases w.sumCash? <;> cases w.sumReserved? <;> simp

theorem companyIssues_eq_nil {c : Company} : companyIssues c = [] ↔ 0 ≤ c.reserved.toInt := by
  have hnonneg : 0 ≤ c.reserved.toInt ↔ ¬ c.reserved < 0 := by rw [Int64.not_lt, Int64.le_iff_toInt_le]; rfl
  rw [companyIssues, hnonneg]
  simp

theorem orderIssues_eq_nil {o : Order} : orderIssues o = [] ↔
    o.remaining.toNat ≤ o.quantity.toNat ∧ (o.status = .filled ↔ o.remaining = 0) := by
  rw [orderIssues, List.append_eq_nil_iff, ← UInt64.le_iff_toNat_le, ← UInt64.not_lt]
  simp

theorem contractIssues_eq_nil {c : Contract} : contractIssues c = [] ↔ c.fulfilled.toNat ≤ c.quantity.toNat := by
  rw [contractIssues, ← UInt64.le_iff_toNat_le, ← UInt64.not_lt]
  simp

theorem reservationIssues_eq_nil {owed : CompanyId → Int} {c : Company} :
    reservationIssues owed c = [] ↔ c.reserved.toInt = owed c.id := by
  rw [reservationIssues]
  simp

theorem allocationIssues_eq_nil {a : Allocation} : allocationIssues a = [] ↔
    a.operations.toNat + a.research.toNat + a.logistics.toNat + a.corporate.toNat = 100 := by
  rw [allocationIssues, ← Allocation.check_ok]
  cases a.check <;> simp

/-- Nothing is wrong with a world exactly if its ledger is in order. -/
theorem issues_eq_nil : w.issues w.obligations = [] ↔ w.Orderly := by
  simp only [issues, List.append_eq_nil_iff, List.flatMap_eq_nil_iff, sumIssues_eq_nil, companyIssues_eq_nil,
    orderIssues_eq_nil, contractIssues_eq_nil, reservationIssues_eq_nil, allocationIssues_eq_nil]
  constructor
  · rintro ⟨⟨⟨⟨⟨⟨hcash, hreserved⟩, hnonneg⟩, horders⟩, hfulfilled⟩, hbacked⟩, hwhole⟩
    exact ⟨hcash, hreserved, hnonneg, fun o ho => (horders o ho).1, fun o ho => (horders o ho).2, hfulfilled,
      hbacked, hwhole⟩
  · rintro ⟨hcash, hreserved, hnonneg, hremaining, hfilled, hfulfilled, hbacked, hwhole⟩
    exact ⟨⟨⟨⟨⟨⟨hcash, hreserved⟩, hnonneg⟩, fun o ho => ⟨hremaining o ho, hfilled o ho⟩⟩, hfulfilled⟩, hbacked⟩,
      hwhole⟩

end World

variable {w : World} {limit : Nat}

theorem audit_ok {r : AuditReport} : audit w limit = .ok r ↔ w.DebtsFit ∧
    r = { currentTick := w.clock.currentTick, lockVersion := w.clock.lockVersion, sumCash := w.sumCash?
          sumReserved := w.sumReserved?, issues := (w.issues w.obligations).take limit
          truncated := limit < (w.issues w.obligations).length } := by
  simp only [audit, Check.bind_ok, World.owed_ok, Check.pure_ok]
  constructor
  · rintro ⟨owed, ⟨hfit, rfl⟩, rfl⟩
    exact ⟨hfit, rfl⟩
  · rintro ⟨hfit, rfl⟩
    exact ⟨_, ⟨hfit, rfl⟩, rfl⟩

theorem audit_error {e : Failure} : audit w limit = .error e ↔ ¬ w.DebtsFit ∧ e = .undefined := by
  simp only [audit, Check.bind_error, World.owed_error, Check.pure_error, and_false, exists_false, or_false]

/-- What there is to report is reported or cut off, and either is a violation. -/
theorem hasViolations_of_audit {r : AuditReport} (h : audit w limit = .ok r) :
    r.hasViolations = true ↔ 0 < (w.issues w.obligations).length := by
  obtain ⟨-, rfl⟩ := audit_ok.1 h
  rw [AuditReport.hasViolations]
  cases w.issues w.obligations with
  | nil => simp
  | cons i is => cases limit <;> simp

/-- Where nothing is wrong, there is nothing to report. -/
theorem audit_of_orderly (hfit : w.DebtsFit) (h : w.Orderly) (limit : Nat) :
    ∃ r, audit w limit = .ok r ∧ r.issues = [] ∧ r.truncated = false ∧ r.hasViolations = false := by
  refine ⟨_, audit_ok.2 ⟨hfit, rfl⟩, ?_⟩
  rw [AuditReport.hasViolations, World.issues_eq_nil.2 h]
  simp

namespace World

/-- Debts that are not below zero fit if no debtor owes too much in all. -/
theorem debtsFit_of_nonneg (hnonneg : ∀ d ∈ w.debts, 0 ≤ d.2)
    (hbound : ∀ d ∈ w.debts, w.obligations d.1 < 2 ^ 127) : w.DebtsFit := by
  intro i p hp
  have hdebt (x : Int) (hx : x ∈ debtsOf i w.debts) : 0 ≤ x := by
    obtain ⟨d, hd, rfl⟩ := List.mem_map.1 hx
    exact hnonneg d (List.mem_of_mem_filter hd)
  have hlow : 0 ≤ p.sum := List.sum_nonneg fun x hx => hdebt x (hp.subset hx)
  have hhigh : p.sum ≤ w.obligations i := by
    rw [← sum_debtsOf]
    exact hp.sublist.sum_le_sum hdebt
  have hlimit : p.sum < 2 ^ 127 := by
    cases hdebts : debtsOf i w.debts with
    | nil =>
        rw [hdebts, List.prefix_nil] at hp
        rw [hp]
        decide
    | cons x xs =>
        obtain ⟨d, hd, -⟩ := List.mem_map.1 (hdebts ▸ List.mem_cons_self : x ∈ debtsOf i w.debts)
        obtain ⟨hd, hi⟩ := List.mem_filter.1 hd
        exact Int.lt_of_le_of_lt hhigh (of_decide_eq_true hi ▸ hbound d hd)
  exact ⟨by omega, hlimit⟩

theorem debt_cases {d : CompanyId × Int} (hd : d ∈ w.debts) :
    (∃ o ∈ w.orders, d = (o.company, o.obligation)) ∨
      ∃ c ∈ w.contracts, c.buyer = some d.1 ∧ d.2 = c.obligation := by
  rcases List.mem_append.1 hd with hd | hd
  · obtain ⟨o, ho, rfl⟩ := List.mem_map.1 hd
    exact Or.inl ⟨o, ho, rfl⟩
  · obtain ⟨c, hc, hd⟩ := List.mem_filterMap.1 hd
    obtain ⟨b, hb, rfl⟩ := Option.map_eq_some_iff.1 hd
    exact Or.inr ⟨c, hc, hb, rfl⟩

/-- In a sound world what is owed is not below zero, and it is set aside. -/
theorem Sound.debtsFit (h : w.Sound) : w.DebtsFit := by
  have hfit := h.fit
  refine debtsFit_of_nonneg (fun d hd => ?_) fun d hd => ?_
  · rcases debt_cases hd with ⟨o, ho, rfl⟩ | ⟨c, hc, hbuyer, hd⟩
    · have howed := (hfit.order o ho).owedBy_nonneg trivial o.company
      rwa [Order.owedBy, if_pos rfl] at howed
    · have howed := (hfit.contract c hc).owedBy_nonneg trivial d.1
      rwa [Contract.owedBy, if_pos hbuyer, ← hd] at howed
  · obtain ⟨c, hc⟩ : ∃ c, w.companies.get? d.1 = some c := by
      rcases debt_cases hd with ⟨o, ho, rfl⟩ | ⟨k, hk, hbuyer, -⟩
      · exact hfit.exists_company (hfit.order o ho).company
      · exact hfit.exists_company ((hfit.contract k hk).buyer d.1 hbuyer)
    have hreserved : c.reserved.toInt = w.obligations c.id := h.reserved c (Roster.mem_of_get? hc)
    have hid : c.id = d.1 := Roster.key_of_get? hc
    rw [hid] at hreserved
    have hmax := c.reserved.toInt_le
    have hword : Int64.maxValue.toInt = 2 ^ 63 - 1 := by decide
    omega

/-- In a sound world only sums can go wrong. -/
theorem Sound.issues (h : w.Sound) : w.issues w.obligations = w.sumIssues := by
  have hfit := h.fit
  have hcompanies : w.companies.flatMap companyIssues = [] := by
    refine List.flatMap_eq_nil_iff.2 fun c hc => companyIssues_eq_nil.2 ?_
    rw [h.reserved c hc]
    exact hfit.obligations_nonneg trivial c.id
  have horders : w.orders.flatMap orderIssues = [] := by
    refine List.flatMap_eq_nil_iff.2 fun o ho => orderIssues_eq_nil.2 ?_
    obtain ⟨-, hremaining, hfilled⟩ := h.orders o ho
    exact ⟨UInt64.le_iff_toNat_le.1 hremaining, hfilled⟩
  have hcontracts : w.contracts.flatMap contractIssues = [] :=
    List.flatMap_eq_nil_iff.2 fun c hc => contractIssues_eq_nil.2 (UInt64.le_iff_toNat_le.1 (h.contracts c hc).2)
  have hreservations : w.companies.flatMap (reservationIssues w.obligations) = [] :=
    List.flatMap_eq_nil_iff.2 fun c hc => reservationIssues_eq_nil.2 (h.reserved c hc)
  have hallocations : w.allocations.flatMap allocationIssues = [] :=
    List.flatMap_eq_nil_iff.2 fun a ha =>
      allocationIssues_eq_nil.2 (Allocation.check_ok.1 (hfit.allocation a ha).whole)
  rw [World.issues, hcompanies, horders, hcontracts, hreservations, hallocations]
  simp only [List.append_nil]

/-- An audit of a sound world has a result, and reports nothing but sums that overflow. -/
theorem Sound.audit (h : w.Sound) (limit : Nat) :
    ∃ r, Mercantile.audit w limit = .ok r ∧ ∀ i ∈ r.issues, i = .sumOverflow := by
  refine ⟨_, audit_ok.2 ⟨h.debtsFit, rfl⟩, fun i hi => ?_⟩
  have hi := List.mem_of_mem_take hi
  rw [h.issues, sumIssues] at hi
  split at hi
  · exact List.mem_singleton.1 hi
  · cases hi

end World

/-- What an audit reports. It has no result exactly where a sum on the way to what some company owes is no word of 128
bits, whatever the limit is. Else the report is what a sink with the limit has taken of one list of issues: the
beginning of the list, and a note of whether there are more; and there is a violation exactly if there is an issue.
There is none exactly if the ledger is in order. -/
theorem audit_exact (w : World) :
    (∀ limit, audit w limit = .error .undefined ↔ ¬ w.DebtsFit) ∧
    (w.DebtsFit → ∀ limit, ∃ r, audit w limit = .ok r ∧
      r.issues = (w.issues w.obligations).take limit ∧
      (r.truncated = true ↔ limit < (w.issues w.obligations).length) ∧
      (r.hasViolations = true ↔ 0 < (w.issues w.obligations).length) ∧
      (w.issues w.obligations).foldl Sink.push ⟨limit, [], false⟩ = ⟨limit, r.issues, r.truncated⟩) ∧
    (w.issues w.obligations = [] ↔ w.Orderly) := by
  refine ⟨fun limit => audit_error.trans (and_iff_left rfl), fun hfit limit => ?_, World.issues_eq_nil⟩
  have haudit : audit w limit = .ok _ := audit_ok.2 ⟨hfit, rfl⟩
  exact ⟨_, haudit, rfl, decide_eq_true_iff, hasViolations_of_audit haudit, Sink.fill limit _⟩

/-- The ledger of the busy world is in order, and no audit of it reports anything. -/
theorem audit_exact_busy : busyWorld.DebtsFit ∧ busyWorld.Orderly ∧ ∀ limit, ∃ r, audit busyWorld limit = .ok r ∧
    r.issues = [] ∧ r.truncated = false ∧ r.hasViolations = false := by
  have haudited : (audit busyWorld 0).isOk := by decide +kernel
  have hnone : busyWorld.issues busyWorld.obligations = [] := by decide +kernel
  obtain ⟨hundefined, hdefined, horderly⟩ := audit_exact busyWorld
  have hfit : busyWorld.DebtsFit := by
    by_contra hnot
    rw [(hundefined 0).2 hnot] at haudited
    cases haudited
  refine ⟨hfit, horderly.1 hnone, fun limit => ?_⟩
  obtain ⟨r, haudit, hissues, htruncated, hviolations, -⟩ := hdefined hfit limit
  rw [hnone, List.length_nil] at htruncated hviolations
  rw [hnone, List.take_nil] at hissues
  refine ⟨r, haudit, hissues, ?_, ?_⟩
  · exact Bool.eq_false_iff.2 fun h => absurd (htruncated.1 h) (Nat.not_lt_zero _)
  · exact Bool.eq_false_iff.2 fun h => absurd (hviolations.1 h) (Nat.lt_irrefl _)

/-- A company with eight open orders that come to `2 ^ 128` cents, and nothing set aside for them. -/
def overcommitted : World :=
  { World.empty with
    regions := [⟨⟨1⟩, "north"⟩]
    items := [⟨⟨2⟩, "ore"⟩]
    companies := [⟨⟨3⟩, "smith", 100, 0, false⟩]
    orders := [4, 5, 6, 7, 8, 9, 10, 11].map fun id =>
      ⟨⟨id⟩, ⟨3⟩, ⟨1⟩, ⟨2⟩, .buy, 4611686018427387904, 9223372036854775808, 9223372036854775808, .unfilled, 0⟩
    nextId := 11 }

/-- The world passes the check, its reserved cash is not what is owed, and no audit says so: there is none. -/
theorem overcommitted_unaudited : overcommitted.check = .ok () ∧ overcommitted.obligations ⟨3⟩ = 2 ^ 128 ∧
    ¬ overcommitted.Orderly ∧ ∀ limit, audit overcommitted limit = .error .undefined := by
  have howed : overcommitted.obligations ⟨3⟩ = 2 ^ 128 := by decide +kernel
  have hundefined : ¬ overcommitted.DebtsFit := by
    have hfails : (audit overcommitted 0).map (·.issues) = .error .undefined := by decide +kernel
    exact (audit_error.1 (Check.map_error.1 hfails)).1
  refine ⟨by decide +kernel, howed, fun h => ?_, fun limit => audit_error.2 ⟨hundefined, rfl⟩⟩
  have hbacked := h.backed ⟨⟨3⟩, "smith", 100, 0, false⟩ (List.mem_singleton_self _)
  exact absurd (hbacked.trans howed) (by decide +kernel)

end Mercantile
