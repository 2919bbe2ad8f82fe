import Mercantile.Proofs.Lifecycles

/-!
How full buildings get. A job takes up room in its building until it ends, and only the start of a job takes
up more: no operation moves a job, and none takes up one that has ended (`Proceeds`). The plan of a job counts
in a word, at the largest one if there are more jobs than that, so a count below a capacity is the true one
(`World.unfinishedIn_lt`).
-/

namespace Mercantile

open Roster (UpTo)

namespace World

/-- The number of jobs in a building that are not at an end. -/
def unfinishedIn (w : World) (b : BuildingId) : Nat :=
  w.jobs.countP fun j => j.building = b ∧ (j.state = .queued ∨ j.state = .running ∨ j.state = .blocked)

/-- No building has more unfinished jobs than its capacity. -/
def WithinCapacity (w : World) : Prop := ∀ b ∈ w.buildings, w.unfinishedIn b.id ≤ b.capacity.toNat

variable {w w' : World} {b : BuildingId}

theorem unfinishedIn_eq : w.unfinishedIn b = w.jobs.countP fun j => j.building = b && j.state.isActive := by
  refine List.countP_congr fun j _ => ?_
  cases h : j.state <;> simp [JobState.isActive]

/-- Where a job may start there is room, however many jobs a word can count. -/
theorem unfinishedIn_lt {capacity : UInt32} (h : ¬ capacity ≤ activeJobsIn w b) :
    w.unfinishedIn b < capacity.toNat := by
  have hcount : (activeJobsIn w b).toNat = min (w.unfinishedIn b) (UInt32.size - 1) := by
    rw [unfinishedIn_eq]
    exact UInt32.toNat_ofNat_of_lt' (Nat.lt_of_le_of_lt (Nat.min_le_right _ _) (by decide))
  have hcapacity := capacity.toNat_lt_size
  have hlt := UInt32.lt_iff_toNat_lt.1 (UInt32.not_le.1 h)
  omega

end World

/-- A later list has no more entries of a kind if none comes to be of that kind. -/
theorem countP_le_of_forall₂ {α β : Type} {R : α → β → Prop} {p : α → Bool} {q : β → Bool} {as : List α}
    {bs : List β} (h : List.Forall₂ R as bs) (hpq : ∀ a b, R a b → q b → p a) : bs.countP q ≤ as.countP p := by
  induction h with
  | nil => exact Nat.le_refl _
  | @cons a b _ _ hab _ ih =>
      rw [List.countP_cons, List.countP_cons]
      by_cases hq : q b
      · rw [if_pos hq, if_pos (hpq a b hab hq)]
        omega
      · rw [if_neg hq]
        omega

/-- Nothing about a job that places it ever changes. -/
theorem Proceeds.building {j k : Job} (h : Proceeds j k) : k.building = j.building :=
  congrArg (·.building) h.terms

/-- As jobs go on, no building gets fuller. -/
theorem World.unfinishedIn_le {w w' : World} {b : BuildingId} (h : List.Forall₂ Proceeds w.jobs w'.jobs) :
    w'.unfinishedIn b ≤ w.unfinishedIn b := by
  rw [unfinishedIn_eq, unfinishedIn_eq]
  refine countP_le_of_forall₂ h fun j k hjk hk => ?_
  obtain ⟨hplace, hactive⟩ := Bool.and_eq_true_iff.1 hk
  rw [Bool.and_eq_true_iff, ← hjk.building]
  refine ⟨hplace, Job.not_ended.1 fun hend => ?_⟩
  rw [hjk.ended hend] at hactive
  exact Job.not_ended.2 hactive hend

/-- The jobs of a world go on, and one may be added, to a building that has room for it. -/
inductive World.Admits (w : World) : Roster Job → Prop
  | none {js : Roster Job} : List.Forall₂ Proceeds w.jobs js → w.Admits js
  | one {j : Job} {building : Building} :
      w.buildings.get? j.building = some building → w.unfinishedIn j.building < building.capacity.toNat →
      w.Admits (w.jobs ++ [j])

section

variable {w w' : World}

theorem World.Admits.of_eq {js : Roster Job} (h : js = w.jobs) : w.Admits js :=
  .none (h ▸ List.forall₂_same.2 fun j _ => .refl j)

/-- A roster with one more job in a building with room keeps all buildings within their capacities. -/
theorem World.Admits.withinCapacity (h : w.Admits w'.jobs) (hbuildings : w'.buildings = w.buildings)
    (hascending : w.buildings.Ascending) (hw : w.WithinCapacity) : w'.WithinCapacity := by
  intro b hb
  rw [hbuildings] at hb
  have hroom := hw b hb
  generalize hjobs : w'.jobs = js at h
  cases h with
  | none hproceeds => exact Nat.le_trans (unfinishedIn_le (hjobs ▸ hproceeds)) hroom
  | @one j building hget hfree =>
      have hcount : w'.unfinishedIn b.id ≤ w.unfinishedIn b.id + if j.building = b.id then 1 else 0 := by
        rw [unfinishedIn_eq, unfinishedIn_eq, hjobs, List.countP_append, List.countP_singleton]
        refine Nat.add_le_add_left ?_ _
        by_cases hplace : j.building = b.id
        · rw [if_pos hplace]
          split <;> omega
        · rw [if_neg hplace, if_neg (by simp [hplace])]
      by_cases hplace : j.building = b.id
      · have hfound := Roster.get?_of_mem hascending hb
        rw [hplace] at hget hfree
        obtain rfl : building = b := Option.some_inj.1 (hget.symm.trans hfound)
        rw [if_pos hplace] at hcount
        omega
      · rw [if_neg hplace] at hcount
        omega

theorem Command.admits {cfg : EngineConfig} {c : Command} (h : (c.act cfg).run w = .ok () w') :
    w.Admits w'.jobs := by
  cases c with
  | placeOrder r =>
      obtain ⟨id, h, -⟩ := Action.map_ok.1 h
      rw [(placeOrder_frame h).2]
      exact .of_eq rfl
  | cancelOrder id =>
      obtain ⟨o, -, -, hframe⟩ := cancelOrder_frame h
      rw [hframe]
      exact .of_eq rfl
  | createContract r =>
      obtain ⟨id, h, -⟩ := Action.map_ok.1 h
      rw [(createContract_frame h).2]
      exact .of_eq rfl
  | cancelContract id =>
      obtain ⟨c, -, -, hframe⟩ := cancelContract_frame h
      rw [hframe]
      exact .of_eq rfl
  | startJob r =>
      obtain ⟨id, h, -⟩ := Action.map_ok.1 h
      obtain ⟨-, -, building, recipe, inputs, hbuilding, -, -, -, -, hroom, -, -, rfl⟩ := startJob_ok h
      rw [show building.id = r.building from Roster.key_of_get? hbuilding] at hroom
      exact .one hbuilding (World.unfinishedIn_lt hroom)
  | cancelJob id =>
      obtain ⟨j, hj, hactive, rfl⟩ := cancelJob_ok h
      refine .none (Roster.proceed_modify fun k hk => ?_)
      rw [hj, Option.some_inj] at hk
      exact .of_open rfl (hk ▸ Job.not_ended.2 hactive)
  | createShipment r =>
      obtain ⟨id, h, -⟩ := Action.map_ok.1 h
      obtain ⟨-, -, -, -, -, -, -, eta, inv, -, -, -, rfl⟩ := createShipment_ok h
      exact .of_eq rfl
  | cancelShipment id =>
      obtain ⟨sh, inv, -, -, -, rfl⟩ := cancelShipment_ok h
      exact .of_eq rfl
  | setAllocation a =>
      obtain ⟨-, -, rfl⟩ := setAllocation_ok h
      exact .of_eq rfl

/-- A tick builds nothing and starts no job. -/
theorem step_jobs {cfg : EngineConfig} {r : TickReport × List Trade} (hw : w.jobs.Ascending)
    (h : (step cfg).run w = .ok r w') :
    w'.buildings = w.buildings ∧ List.Forall₂ Proceeds w.jobs w'.jobs := by
  obtain ⟨tick, before, after, drift, o, t, -, -, hphases, hclock, -, -, -, -⟩ := step_ok h
  obtain ⟨s₁, w₂, w₃, s₄, hbots, hclear, hproduction, hdelivered, hdeliveries⟩ := runPhases_ok hphases
  obtain ⟨v, -, rfl⟩ := moveClock_ok.1 hclock
  have hmoved := supplyBots_moved hbots
  have hcleared := clearMarkets_frame hclear
  have hproduced := runProduction_frame hproduction
  have harrived := advanceShipments_frame hdelivered
  have hsettled := settleContracts_frame hdeliveries
  have hbefore : (w₂.retainRecentTrades tick cfg.health.tradesWindowTicks).jobs = w.jobs := by
    rw [World.retainRecentTrades, hcleared, hmoved.frame]
  have hafter : t.world.jobs = w₃.jobs := by rw [hsettled, harrived]
  constructor
  · show t.world.buildings = w.buildings
    rw [hsettled, harrived, hproduced, World.retainRecentTrades, hcleared, hmoved.frame]
  · show List.Forall₂ Proceeds w.jobs t.world.jobs
    rw [hafter, ← hbefore]
    exact runProduction_proceeds (hbefore ▸ hw) hproduction

theorem Operates.admits (h : Operates w w') (hw : w.jobs.Ascending) :
    w'.buildings = w.buildings ∧ w.Admits w'.jobs := by
  cases h with
  | command cfg c h =>
      have hbuildings : w'.buildings = w.buildings := by rw [Command.act_frame h]
      exact ⟨hbuildings, Command.admits h⟩
  | tick cfg r h =>
      obtain ⟨hbuildings, hjobs⟩ := step_jobs hw h
      exact ⟨hbuildings, .none hjobs⟩

theorem Runs.withinCapacity (h : Runs w w') (hbuildings : w.buildings.Ascending) (hjobs : UpTo w.nextId w.jobs)
    (hroom : w.WithinCapacity) : w'.buildings = w.buildings ∧ w'.WithinCapacity := by
  induction h with
  | refl => exact ⟨rfl, hroom⟩
  | @tail v u hrun hlast ih =>
      obtain ⟨hsame, hwithin⟩ := ih
      have hlater := Runs.continues hrun
      have hlisted := (hlater.jobs hjobs).upTo hlater.nextId hjobs
      obtain ⟨hkept, hadmits⟩ := hlast.admits hlisted.ascending
      exact ⟨hkept.trans hsame, hadmits.withinCapacity hkept (hsame ▸ hbuildings) hwithin⟩

end

/-- No building is ever over its capacity, and a job stays what was started, in its building. -/
theorem capacity_kept {w v : World} (hbuildings : w.buildings.Ascending) (hjobs : UpTo w.nextId w.jobs)
    (hroom : w.WithinCapacity) (hv : Runs w v) :
    v.buildings = w.buildings ∧ v.WithinCapacity ∧ ∀ u, Runs v u → ∀ j ∈ v.jobs, ∃ k,
      u.jobs.get? j.id = some k ∧ k.company = j.company ∧ k.building = j.building ∧ k.region = j.region ∧
        k.recipe = j.recipe ∧ k.quantity = j.quantity := by
  obtain ⟨hsame, hwithin⟩ := hv.withinCapacity hbuildings hjobs hroom
  refine ⟨hsame, hwithin, fun u hu j hj => ?_⟩
  have hlisted := (hv.continues.jobs hjobs).upTo hv.continues.nextId hjobs
  obtain ⟨k, hk, hproceeds⟩ := (hu.continues.jobs hlisted).found hu.continues.nextId hlisted hj
  have hterms := hproceeds.terms
  simp only [terms, Job.mk.injEq] at hterms
  obtain ⟨-, hcompany, hplace, hregion, hrecipe, hquantity, -⟩ := hterms
  exact ⟨k, hk, hcompany, hplace, hregion, hrecipe, hquantity⟩

/-- Once the job of the busy world has ended, two more fill its smelter to capacity, and the next tick works on
them where they are. -/
theorem capacity_kept_busy : busyWorld.buildings.Ascending ∧ UpTo busyWorld.nextId busyWorld.jobs ∧
    busyWorld.WithinCapacity ∧ ∃ v u, Runs busyWorld v ∧ Runs v u ∧ v.unfinishedIn ⟨8⟩ = 2 ∧
      v.buildings = busyWorld.buildings ∧ v.WithinCapacity ∧ ∀ j ∈ v.jobs, ∃ k,
        u.jobs.get? j.id = some k ∧ k.company = j.company ∧ k.building = j.building ∧ k.region = j.region ∧
          k.recipe = j.recipe ∧ k.quantity = j.quantity := by
  have hascending : busyWorld.buildings.Ascending := by decide +kernel
  have hjobs : UpTo busyWorld.nextId busyWorld.jobs := ⟨by decide +kernel, by decide +kernel⟩
  have hroom : busyWorld.WithinCapacity := by
    rw [World.WithinCapacity]
    decide +kernel
  let start : Command := .startJob ⟨⟨7⟩, ⟨8⟩, ⟨5⟩, 1⟩
  have hfull : ((step busyConfig >>= fun _ => start.act busyConfig >>= fun _ =>
      start.act busyConfig).outcome busyWorld).map (fun r => r.2.unfinishedIn ⟨8⟩) = .ok 2 := by decide +kernel
  have hrun : (((step busyConfig >>= fun _ => start.act busyConfig >>= fun _ => start.act busyConfig) >>=
      fun _ => step busyConfig).outcome busyWorld).isOk := by decide +kernel
  obtain ⟨_, u, hrun⟩ := Action.ok_of_outcome_isOk hrun
  obtain ⟨_, v, hstarted, hlast⟩ := Action.bind_ok.1 hrun
  rw [Action.outcome_ok.2 hstarted] at hfull
  obtain ⟨r, w₁, htick, hstarts⟩ := Action.bind_ok.1 hstarted
  obtain ⟨_, w₂, hfirst, hsecond⟩ := Action.bind_ok.1 hstarts
  have hv : Runs busyWorld v := .tail (.tail (.single (.tick busyConfig r htick)) (.command busyConfig _ hfirst))
    (.command busyConfig _ hsecond)
  have hu : Runs v u := .single (.tick busyConfig _ hlast)
  obtain ⟨hsame, hwithin, hterms⟩ := capacity_kept hascending hjobs hroom hv
  exact ⟨hascending, hjobs, hroom, v, u, hv, hu, Except.ok.inj hfull, hsame, hwithin, hterms u hu⟩

end Mercantile
