import Mercantile.Proofs.Audits
import Mercantile.Proofs.Money
import Mercantile.Proofs.Overflows

/-!
What the ledger totals are worth. A total that is there is exact, and it is there where every sum on the way is an
amount (`World.checkedSum_eq_some_iff`), which depends on the order of the companies unless all that is above zero and
all that is below zero are amounts on their own (`sumsFit_perm_iff`). A tick asks for the total twice, and nothing
that happens in between fails for it (`runPhases_phased`), so these two are the only places where it can fail so.
-/

namespace Mercantile

/-- The sum of what is above zero. -/
def gains (cs : List Cents) : Int := (cs.map fun c => max c.toInt 0).sum

/-- The sum of what is below zero. -/
def losses (cs : List Cents) : Int := (cs.map fun c => min c.toInt 0).sum

/-- All that is above zero and all that is below zero are amounts. -/
def PartsFit (cs : List Cents) : Prop := -2 ^ 63 ≤ losses cs ∧ gains cs < 2 ^ 63

instance (cs : List Cents) : Decidable (PartsFit cs) := inferInstanceAs (Decidable (_ ∧ _))

theorem gains_append (cs ds : List Cents) : gains (cs ++ ds) = gains cs + gains ds := by
  rw [gains, List.map_append, List.sum_append, gains, gains]

theorem losses_append (cs ds : List Cents) : losses (cs ++ ds) = losses cs + losses ds := by
  rw [losses, List.map_append, List.sum_append, losses, losses]

theorem gains_nonneg (cs : List Cents) : 0 ≤ gains cs :=
  List.sum_nonneg fun n hn => by
    obtain ⟨c, -, rfl⟩ := List.mem_map.1 hn
    exact le_max_right ..

theorem losses_nonpos (cs : List Cents) : losses cs ≤ 0 := by
  induction cs with
  | nil => exact Int.le_refl 0
  | cons c cs ih =>
      rw [losses, List.map_cons, List.sum_cons, ← losses]
      have := min_le_right c.toInt 0
      omega

theorem gains_add_losses (cs : List Cents) : gains cs + losses cs = (cs.map (·.toInt)).sum := by
  induction cs with
  | nil => rfl
  | cons c cs ih =>
      rw [gains, losses, List.map_cons, List.map_cons, List.map_cons, List.sum_cons, List.sum_cons, List.sum_cons,
        ← gains, ← losses, ← ih]
      omega

theorem gains_perm {cs ds : List Cents} (h : ds.Perm cs) : gains ds = gains cs := (h.map _).sum_eq

theorem losses_perm {cs ds : List Cents} (h : ds.Perm cs) : losses ds = losses cs := (h.map _).sum_eq

theorem PartsFit.sumsFit {cs : List Cents} (h : PartsFit cs) : SumsFit cs := by
  rintro p ⟨t, rfl⟩
  obtain ⟨hlow, hhigh⟩ := h
  rw [losses_append] at hlow
  rw [gains_append] at hhigh
  have hsum := gains_add_losses p
  have hgains := gains_nonneg p
  have hgains' := gains_nonneg t
  have hlosses := losses_nonpos p
  have hlosses' := losses_nonpos t
  omega

theorem losses_of_nonneg {cs : List Cents} (h : ∀ c ∈ cs, 0 ≤ c.toInt) : losses cs = 0 :=
  List.sum_eq_zero fun n hn => by
    obtain ⟨c, hc, rfl⟩ := List.mem_map.1 hn
    exact min_eq_right (h c hc)

theorem gains_of_nonpos {cs : List Cents} (h : ∀ c ∈ cs, c.toInt ≤ 0) : gains cs = 0 :=
  List.sum_eq_zero fun n hn => by
    obtain ⟨c, hc, rfl⟩ := List.mem_map.1 hn
    exact max_eq_right (h c hc)

/-- With all that is above zero first, the sum on the way is as high as it gets, and with all that is below zero first
it is as low; so both are amounts exactly if every order of `xs` has a sum. -/
theorem sumsFit_perm_iff {α : Type} (xs : List α) (f : α → Cents) :
    (∀ ys : List α, ys.Perm xs → SumsFit (ys.map f)) ↔ PartsFit (xs.map f) := by
  constructor
  · intro h
    let above := xs.filter fun x => 0 ≤ (f x).toInt
    let below := xs.filter fun x => !decide (0 ≤ (f x).toInt)
    have hperm : (above ++ below).Perm xs := List.filter_append_perm _ xs
    have habove : losses (above.map f) = 0 := losses_of_nonneg fun c hc => by
      obtain ⟨x, hx, rfl⟩ := List.mem_map.1 hc
      exact of_decide_eq_true (List.mem_filter.1 hx).2
    have hbelow : gains (below.map f) = 0 := gains_of_nonpos fun c hc => by
      obtain ⟨x, hx, rfl⟩ := List.mem_map.1 hc
      have hneg := (List.mem_filter.1 hx).2
      rw [Bool.not_eq_true', decide_eq_false_iff_not] at hneg
      exact Int.le_of_lt (Int.not_le.1 hneg)
    have hgains : gains (xs.map f) = gains (above.map f) := by
      rw [← gains_perm (hperm.map f), List.map_append, gains_append, hbelow, Int.add_zero]
    have hlosses : losses (xs.map f) = losses (below.map f) := by
      rw [← losses_perm (hperm.map f), List.map_append, losses_append, habove, Int.zero_add]
    have hhigh := (h _ hperm (above.map f) (by rw [List.map_append]; exact List.prefix_append ..)).2
    have hlow := (h _ (List.perm_append_comm.trans hperm) (below.map f)
      (by rw [List.map_append]; exact List.prefix_append ..)).1
    rw [← gains_add_losses, habove, Int.add_zero, ← hgains] at hhigh
    rw [← gains_add_losses, hbelow, Int.zero_add, ← hlosses] at hlow
    exact ⟨hlow, hhigh⟩
  · intro h ys hperm
    refine PartsFit.sumsFit ?_
    rw [PartsFit, gains_perm (hperm.map f), losses_perm (hperm.map f)]
    exact h

/-- Where nothing is below zero, the last sum on the way is the highest. -/
theorem partsFit_of_nonneg {α : Type} {xs : List α} {f : α → Cents} (h : ∀ x ∈ xs, 0 ≤ (f x).toInt)
    (hsum : (xs.map fun x => (f x).toInt).sum < 2 ^ 63) : PartsFit (xs.map f) := by
  have hlosses : losses (xs.map f) = 0 := losses_of_nonneg (List.forall_mem_map.2 h)
  have hgains := gains_add_losses (xs.map f)
  rw [hlosses, Int.add_zero, List.map_map] at hgains
  exact ⟨by rw [hlosses]; decide, hgains ▸ hsum⟩

/-- The number is an amount. -/
def IsAmount (n : Int) : Prop := -2 ^ 63 ≤ n ∧ n < 2 ^ 63

instance (n : Int) : Decidable (IsAmount n) := inferInstanceAs (Decidable (_ ∧ _))

theorem isAmount_of_toInt_eq {v : Cents} {n : Int} (h : v.toInt = n) : IsAmount n := h ▸ ⟨v.le_toInt, v.toInt_lt⟩

namespace World

theorem checkedSum_eq_some_iff {cs : List Cents} {v : Cents} :
    checkedSum cs = some v ↔ SumsFit cs ∧ v.toInt = (cs.map (·.toInt)).sum := by
  constructor
  · exact fun h => ⟨checkedSum_isSome.1 (Option.isSome_of_eq_some h), checkedSum_eq_some h⟩
  · rintro ⟨hfit, hv⟩
    obtain ⟨u, hu⟩ := Option.isSome_iff_exists.1 (checkedSum_isSome.2 hfit)
    rw [hu, Option.some_inj, ← Int64.toInt_inj, checkedSum_eq_some hu, hv]

/-- A total that is there only when it is exact is what it should be, unless it is missing. -/
theorem total_eq_ofInt? {total : Option Cents} {n : Int} (h : ∀ v, total = some v → v.toInt = n) :
    total = Int64.ofInt? n ↔ (IsAmount n → total.isSome) := by
  rw [IsAmount, ← ofInt?_isSome]
  constructor
  · exact fun heq hsome => heq ▸ hsome
  · intro hsome
    refine Option.ext fun v => ⟨fun hv => Int64.ofInt?_eq_some.2 (h v hv), fun hv => ?_⟩
    obtain ⟨u, hu⟩ := Option.isSome_iff_exists.1 (hsome (Option.isSome_of_eq_some hv))
    rw [hu, Option.some_inj, ← Int64.toInt_inj, h u hu, Int64.ofInt?_eq_some.1 hv]

/-- Amounts come to what they should in every order, unless they should come to an amount but a part does not. -/
theorem checkedSum_perm_iff {α : Type} (xs : List α) (f : α → Cents) :
    (∀ ys : List α, ys.Perm xs → checkedSum (ys.map f) = Int64.ofInt? (xs.map fun x => (f x).toInt).sum) ↔
      (IsAmount (xs.map fun x => (f x).toInt).sum → PartsFit (xs.map f)) := by
  have hsum {ys : List α} (h : ys.Perm xs) (v : Cents) (hv : checkedSum (ys.map f) = some v) :
      v.toInt = (xs.map fun x => (f x).toInt).sum := by
    rw [checkedSum_eq_some hv, List.map_map]
    exact (h.map _).sum_eq
  rw [← sumsFit_perm_iff]
  constructor
  · exact fun h hamount ys hperm => checkedSum_isSome.1 ((total_eq_ofInt? (hsum hperm)).1 (h ys hperm) hamount)
  · exact fun h ys hperm => (total_eq_ofInt? (hsum hperm)).2 fun hamount => checkedSum_isSome.2 (h hamount ys hperm)

variable {w : World} {v : Cents}

theorem sumCash?_eq_some_iff : w.sumCash? = some v ↔
    SumsFit (w.companies.map (·.cash)) ∧ v.toInt = (w.companies.map (·.cash.toInt)).sum := by
  rw [sumCash?, checkedSum_eq_some_iff, List.map_map]
  rfl

theorem sumReserved?_eq_some_iff : w.sumReserved? = some v ↔
    SumsFit (w.companies.map (·.reserved)) ∧ v.toInt = (w.companies.map (·.reserved.toInt)).sum := by
  rw [sumReserved?, checkedSum_eq_some_iff, List.map_map]
  rfl

theorem ledgerTotal?_isSome : w.ledgerTotal?.isSome ↔
    SumsFit (w.companies.map (·.cash)) ∧ SumsFit (w.companies.map (·.reserved)) ∧ IsAmount w.holdings := by
  constructor
  · intro h
    obtain ⟨v, hv⟩ := Option.isSome_iff_exists.1 h
    have hexact := ledgerTotal?_eq_some hv
    simp only [ledgerTotal?, Option.bind_eq_bind, Option.bind_eq_some_iff] at hv
    obtain ⟨cash, hcash, reserved, hreserved, -⟩ := hv
    exact ⟨(sumCash?_eq_some_iff.1 hcash).1, (sumReserved?_eq_some_iff.1 hreserved).1, isAmount_of_toInt_eq hexact⟩
  · rintro ⟨hcash, hreserved, hamount⟩
    obtain ⟨cash, hcash⟩ := Option.isSome_iff_exists.1 (checkedSum_isSome.2 hcash)
    obtain ⟨reserved, hreserved⟩ := Option.isSome_iff_exists.1 (checkedSum_isSome.2 hreserved)
    have htotal : w.ledgerTotal? = Int64.ofInt? (cash.toInt + reserved.toInt) := by
      rw [ledgerTotal?, sumCash?, sumReserved?, hcash, hreserved]
      rfl
    rw [htotal, (sumCash?_eq_some_iff.1 hcash).2, (sumReserved?_eq_some_iff.1 hreserved).2, ofInt?_isSome]
    exact hamount

theorem ledgerTotal?_eq_some_iff : w.ledgerTotal? = some v ↔
    SumsFit (w.companies.map (·.cash)) ∧ SumsFit (w.companies.map (·.reserved)) ∧ v.toInt = w.holdings := by
  constructor
  · intro h
    obtain ⟨hcash, hreserved, -⟩ := ledgerTotal?_isSome.1 (Option.isSome_of_eq_some h)
    exact ⟨hcash, hreserved, ledgerTotal?_eq_some h⟩
  · rintro ⟨hcash, hreserved, hv⟩
    obtain ⟨u, hu⟩ :=
      Option.isSome_iff_exists.1 (ledgerTotal?_isSome.2 ⟨hcash, hreserved, isAmount_of_toInt_eq hv⟩)
    rw [hu, Option.some_inj, ← Int64.toInt_inj, ledgerTotal?_eq_some hu, hv]

theorem holdings_perm {cs : List Company} (h : cs.Perm w.companies) :
    World.holdings { w with companies := cs } = w.holdings := by
  rw [holdings, holdings, (h.map _).sum_eq, (h.map _).sum_eq]

theorem ledgerTotal?_perm_iff (w : World) :
    (∀ cs : List Company, cs.Perm w.companies →
      World.ledgerTotal? { w with companies := cs } = Int64.ofInt? w.holdings) ↔
      (IsAmount w.holdings → PartsFit (w.companies.map (·.cash)) ∧ PartsFit (w.companies.map (·.reserved))) := by
  have hsum {cs : List Company} (h : cs.Perm w.companies) (v : Cents)
      (hv : World.ledgerTotal? { w with companies := cs } = some v) : v.toInt = w.holdings := by
    rw [ledgerTotal?_eq_some hv, holdings_perm h]
  rw [← sumsFit_perm_iff, ← sumsFit_perm_iff]
  constructor
  · intro h hamount
    have hfit (cs : List Company) (hperm : cs.Perm w.companies) :=
      ledgerTotal?_isSome.1 ((total_eq_ofInt? (hsum hperm)).1 (h cs hperm) hamount)
    exact ⟨fun cs hperm => (hfit cs hperm).1, fun cs hperm => (hfit cs hperm).2.1⟩
  · intro h cs hperm
    refine (total_eq_ofInt? (hsum hperm)).2 fun hamount => ledgerTotal?_isSome.2 ?_
    exact ⟨(h hamount).1 cs hperm, (h hamount).2 cs hperm, by rwa [holdings_perm hperm]⟩

end World

section

variable {cfg : EngineConfig} {w v : World} {tick : Tick} {o : TickOutcome} {t : Account}

/-- Without a total before its phases a tick does nothing. -/
theorem step_without_total (htick : w.clock.currentTick.add? 1 = some tick) (hnone : w.ledgerTotal? = none) :
    (step cfg).run w = .error (.overflow .ledgerTotal) w := by
  refine Action.zoom_error.2 ⟨⟨w, .zero⟩, ?_, rfl⟩
  unfold stepAccount
  rw [Action.run_bind (Action.get_ok.2 ⟨rfl, rfl⟩), Action.run_bind (Action.lift_ok.2 ⟨orFail_ok.2 htick, rfl⟩)]
  exact Action.bind_error.2 (Or.inl (Action.lift_error.2 ⟨orFail_error.2 ⟨hnone, rfl⟩, rfl⟩))

/-- Without a total after its phases a tick fails when all is done. -/
theorem step_loses_total (htick : w.clock.currentTick.add? 1 = some tick) (hsome : w.ledgerTotal?.isSome)
    (hphases : (runPhases tick cfg).run ⟨w, .zero⟩ = .ok o t) (hclock : (moveClock tick).run t.world = .ok () v)
    (hnone : v.ledgerTotal? = none) : (step cfg).run w = .error (.overflow .ledgerTotal) v := by
  obtain ⟨before, hbefore⟩ := Option.isSome_iff_exists.1 hsome
  refine Action.zoom_error.2 ⟨⟨v, t.flows⟩, ?_, rfl⟩
  unfold stepAccount
  rw [Action.run_bind (Action.get_ok.2 ⟨rfl, rfl⟩), Action.run_bind (Action.lift_ok.2 ⟨orFail_ok.2 htick, rfl⟩),
    Action.run_bind (Action.lift_ok.2 ⟨orFail_ok.2 hbefore, rfl⟩), Action.run_bind hphases,
    Action.run_bind (Account.onWorld_ok.2 ⟨v, hclock, rfl⟩), Action.run_bind (Action.get_ok.2 ⟨rfl, rfl⟩)]
  exact Action.bind_error.2 (Or.inl (Action.lift_error.2 ⟨orFail_error.2 ⟨hnone, rfl⟩, rfl⟩))

/-- A tick that can be numbered fails for the ledger total where there is none before it, and then it leaves the world
alone, or where all its phases succeed and there is none after them. -/
theorem step_ledgerTotal_iff :
    (step cfg).run w = .error (.overflow .ledgerTotal) v ↔ ∃ tick, w.clock.currentTick.add? 1 = some tick ∧
      (w.ledgerTotal? = none ∧ v = w ∨
        w.ledgerTotal?.isSome ∧ ∃ o t, (runPhases tick cfg).run ⟨w, .zero⟩ = .ok o t ∧
          (moveClock tick).run t.world = .ok () v ∧ v.ledgerTotal? = none) := by
  constructor
  · intro hstep
    obtain ⟨s, hrun, rfl⟩ := Action.zoom_error.1 hstep
    unfold stepAccount at hrun
    rw [Action.run_bind (Action.get_ok.2 ⟨rfl, rfl⟩)] at hrun
    rcases Action.bind_error.1 hrun with hfail | ⟨tick, s₀, hnumber, hcount⟩
    · cases (orFail_error.1 (Action.lift_error.1 hfail).1).2
    obtain ⟨htick, rfl⟩ := Action.lift_ok.1 hnumber
    refine ⟨tick, orFail_ok.1 htick, ?_⟩
    rcases Action.bind_error.1 hcount with hfail | ⟨before, s₁, hbefore, hrest⟩
    · obtain ⟨hmissing, rfl⟩ := Action.lift_error.1 hfail
      exact Or.inl ⟨(orFail_error.1 hmissing).1, rfl⟩
    obtain ⟨htotal, rfl⟩ := Action.lift_ok.1 hbefore
    refine Or.inr ⟨Option.isSome_of_eq_some (orFail_ok.1 htotal), ?_⟩
    -- what the phases and the clock overflow in has other names, so it is the second count that fails
    rcases Action.bind_error.1 hrest with hfail | ⟨o, t, hphases, hmove⟩
    · cases runPhases_phased _ _ _ hfail
    rcases Action.bind_error.1 hmove with hfail | ⟨_, u, hclock, hend⟩
    · obtain ⟨x, hlocked, -⟩ := Action.zoom_error.1 hfail
      cases moveClock_error hlocked
    obtain ⟨w₁, hmoved, rfl⟩ := Account.onWorld_ok.1 hclock
    rw [Action.run_bind (Action.get_ok.2 ⟨rfl, rfl⟩)] at hend
    rcases Action.bind_error.1 hend with hfail | ⟨after, s₂, -, hdrift⟩
    · obtain ⟨hmissing, rfl⟩ := Action.lift_error.1 hfail
      exact ⟨o, t, hphases, hmoved, (orFail_error.1 hmissing).1⟩
    rcases Action.bind_error.1 hdrift with hfail | ⟨drift, s₃, -, hreport⟩
    · rcases Check.bind_error.1 (Action.lift_error.1 hfail).1 with hfar | ⟨expected, -, hfar⟩
      · cases (orFail_error.1 hfar).2
      · cases (orFail_error.1 hfar).2
    · cases hreport
  · rintro ⟨tick, htick, ⟨hnone, rfl⟩ | ⟨hsome, o, t, hphases, hclock, hnone⟩⟩
    · exact step_without_total htick hnone
    · exact step_loses_total htick hsome hphases hclock hnone

end

/-- A total that is there is exact. The total of cash, of reserved cash and of both is there where the sums on the way
are amounts, and that is so in every order of the companies unless the total is an amount while all that is above zero,
or all that is below, is none. So with nothing below zero a total is missing only where it is no amount. A tick fails
for a missing total, before or after its phases, and for nothing else of that name. -/
theorem ledger_totals (w : World) (cfg : EngineConfig) :
    (∀ v, w.sumCash? = some v ↔
      SumsFit (w.companies.map (·.cash)) ∧ v.toInt = (w.companies.map (·.cash.toInt)).sum) ∧
    (∀ v, w.sumReserved? = some v ↔
      SumsFit (w.companies.map (·.reserved)) ∧ v.toInt = (w.companies.map (·.reserved.toInt)).sum) ∧
    (∀ v, w.ledgerTotal? = some v ↔
      SumsFit (w.companies.map (·.cash)) ∧ SumsFit (w.companies.map (·.reserved)) ∧ v.toInt = w.holdings) ∧
    ((∀ cs : List Company, cs.Perm w.companies →
        World.sumCash? { w with companies := cs } = Int64.ofInt? (w.companies.map (·.cash.toInt)).sum) ↔
      (IsAmount (w.companies.map (·.cash.toInt)).sum → PartsFit (w.companies.map (·.cash)))) ∧
    ((∀ cs : List Company, cs.Perm w.companies →
        World.sumReserved? { w with companies := cs } = Int64.ofInt? (w.companies.map (·.reserved.toInt)).sum) ↔
      (IsAmount (w.companies.map (·.reserved.toInt)).sum → PartsFit (w.companies.map (·.reserved)))) ∧
    ((∀ cs : List Company, cs.Perm w.companies →
        World.ledgerTotal? { w with companies := cs } = Int64.ofInt? w.holdings) ↔
      (IsAmount w.holdings → PartsFit (w.companies.map (·.cash)) ∧ PartsFit (w.companies.map (·.reserved)))) ∧
    ((∀ c ∈ w.companies, 0 ≤ c.cash.toInt ∧ 0 ≤ c.reserved.toInt) → ∀ cs : List Company, cs.Perm w.companies →
      World.sumCash? { w with companies := cs } = Int64.ofInt? (w.companies.map (·.cash.toInt)).sum ∧
      World.sumReserved? { w with companies := cs } = Int64.ofInt? (w.companies.map (·.reserved.toInt)).sum ∧
      World.ledgerTotal? { w with companies := cs } = Int64.ofInt? w.holdings) ∧
    ∀ v, (step cfg).run w = .error (.overflow .ledgerTotal) v ↔
      ∃ tick, w.clock.currentTick.add? 1 = some tick ∧
        (w.ledgerTotal? = none ∧ v = w ∨
          w.ledgerTotal?.isSome ∧ ∃ o t, (runPhases tick cfg).run ⟨w, .zero⟩ = .ok o t ∧
            (moveClock tick).run t.world = .ok () v ∧ v.ledgerTotal? = none) := by
  have hcash := World.checkedSum_perm_iff w.companies (·.cash)
  have hreserved := World.checkedSum_perm_iff w.companies (·.reserved)
  have htotal := World.ledgerTotal?_perm_iff w
  refine ⟨fun _ => World.sumCash?_eq_some_iff, fun _ => World.sumReserved?_eq_some_iff,
    fun _ => World.ledgerTotal?_eq_some_iff, hcash, hreserved, htotal, fun h cs hperm => ?_,
    fun _ => step_ledgerTotal_iff⟩
  have hcashParts := partsFit_of_nonneg (f := (·.cash)) fun c hc => (h c hc).1
  have hreservedParts := partsFit_of_nonneg (f := (·.reserved)) fun c hc => (h c hc).2
  have hcashSum : 0 ≤ (w.companies.map (·.cash.toInt)).sum :=
    List.sum_nonneg (List.forall_mem_map.2 fun c hc => (h c hc).1)
  have hreservedSum : 0 ≤ (w.companies.map (·.reserved.toInt)).sum :=
    List.sum_nonneg (List.forall_mem_map.2 fun c hc => (h c hc).2)
  refine ⟨hcash.2 (fun hamount => hcashParts hamount.2) cs hperm,
    hreserved.2 (fun hamount => hreservedParts hamount.2) cs hperm, htotal.2 (fun hamount => ?_) cs hperm⟩
  have hbound : (w.companies.map (·.cash.toInt)).sum + (w.companies.map (·.reserved.toInt)).sum < 2 ^ 63 := hamount.2
  exact ⟨hcashParts (by omega), hreservedParts (by omega)⟩

/-- Three companies with nothing set aside. -/
def threeCompanies (first second third : Cents) : World :=
  { World.empty with
    companies := [⟨⟨1⟩, "mine", first, 0, false⟩, ⟨⟨2⟩, "smith", second, 0, false⟩, ⟨⟨3⟩, "mill", third, 0, false⟩]
    nextId := 3 }

/-- The largest amount, one cent less and one cent more are the largest amount, but with the cent more in the middle
there is no total of them. -/
theorem ledger_totals_three :
    let w := threeCompanies 9223372036854775807 (-1) 1
    let v := threeCompanies 9223372036854775807 1 (-1)
    w.ledgerTotal? = some 9223372036854775807 ∧
      (∃ cs : List Company, cs.Perm w.companies ∧
        World.ledgerTotal? { w with companies := cs } ≠ Int64.ofInt? w.holdings) ∧
      (step {}).run v = .error (.overflow .ledgerTotal) v ∧
      ∀ cs : List Company, cs.Perm (threeCompanies 5 7 9).companies →
        World.ledgerTotal? { threeCompanies 5 7 9 with companies := cs } = some 21 := by
  intro w v
  obtain ⟨-, -, -, -, -, horder, -, -⟩ := ledger_totals w {}
  obtain ⟨-, -, -, -, -, -, -, hstep⟩ := ledger_totals v {}
  obtain ⟨-, -, -, -, -, -, hnonneg, -⟩ := ledger_totals (threeCompanies 5 7 9) {}
  have hmissing : v.ledgerTotal? = none := by decide +kernel
  have hfails := (hstep v).2 ⟨1, by decide +kernel, Or.inl ⟨hmissing, rfl⟩⟩
  refine ⟨by decide +kernel, ?_, hfails, fun cs hperm => ?_⟩
  · by_contra hall
    simp only [not_exists, not_and, not_not] at hall
    exact absurd (horder.1 hall (by decide +kernel)).1 (by decide +kernel)
  · rw [(hnonneg (by decide +kernel) cs hperm).2.2]
    decide +kernel

/-- A world that passes the check and holds the largest amount has no total, and every tick fails for it, while with
its companies in the opposite order there is one. -/
theorem missing_total :
    let w := threeCompanies 9223372036854775807 1 (-1)
    w.check = .ok () ∧ w.holdings = 2 ^ 63 - 1 ∧ w.sumCash? = none ∧ w.ledgerTotal? = none ∧
      (step {}).run w = .error (.overflow .ledgerTotal) w ∧
      World.ledgerTotal? { w with companies := w.companies.reverse } = some 9223372036854775807 := by
  intro w
  have htick : w.clock.currentTick.add? 1 = some 1 := by decide +kernel
  have hnone : w.ledgerTotal? = none := by decide +kernel
  exact ⟨by decide +kernel, by decide +kernel, by decide +kernel, hnone, step_without_total htick hnone,
    by decide +kernel⟩

end Mercantile
