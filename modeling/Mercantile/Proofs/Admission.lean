import Mercantile.Proofs.Progress

/-!
The arithmetic of admitted jobs. `planJob` multiplies the inputs of the recipe by the quantity of a job before
it accepts the job, and no turn of the job can fail at that again. It does not multiply the output. The turn
that completes the job does so, and it fails where the product is no word (`runJob_recipeOverflow`), and the
production with it (`overflowing_job_aborts`).
-/

namespace Mercantile

open Roster (UpTo)

variable {w w' t t' v : World} {j : Job} {recipe : Recipe} {building : Building} {e : Failure}
  {multipliers : MultiplierTable} {cfg : ProductionConfig}

/-- A product of the recipe and the quantity of a job is no word. -/
def Failure.isRecipeOverflow : Failure → Bool
  | .overflow .recipeInputs => true
  | .overflow .recipeOutput => true
  | _ => false

theorem Failure.not_isOutOfStock (he : e.isRecipeOverflow) : ¬ e.isOutOfStock := by
  unfold isRecipeOverflow at he
  split at he
  · exact Bool.false_ne_true
  · exact Bool.false_ne_true
  · cases he

/-- The output of the recipe for the whole quantity is no word. -/
def Job.Bursts (j : Job) (recipe : Recipe) : Prop :=
  UInt64.size ≤ recipe.outputQuantity.toNat * j.quantity.toNat

/-- The turn of the job in `t` brings it to the end of its work: its building works for it, and if there is work
left its inputs are there and the step of the tick is enough. -/
structure Job.Finishes (multipliers : MultiplierTable) (cfg : ProductionConfig) (j : Job) (recipe : Recipe)
    (t : World) : Prop where
  building : ∃ building, t.buildings.get? j.building = some building ∧ building.status = .active ∧
    building.company = j.company
  step : ∃ n, progressStep cfg.baseProgressPerTick (multipliers.of j.company).operations = .ok n ∧
    (j.progress < recipe.workRequired →
      t.Supplies j recipe ∧ recipe.workRequired.toNat ≤ j.progress.toNat + n.toNat)

section

variable {n progress : UInt32} {lines : List (ItemId × Quantity)}

theorem finishJob_recipeOverflow :
    ((∃ t', (finishJob j recipe progress).run t = .error e t') ∧ e.isRecipeOverflow) ↔
      e = .overflow .recipeOutput ∧ recipe.workRequired.toNat ≤ progress.toNat ∧ j.Bursts recipe := by
  constructor
  · rintro ⟨⟨t', h⟩, he⟩
    obtain ⟨hdone, ⟨hproduct, rfl⟩ | rfl⟩ := finishJob_overflows h
    · exact ⟨rfl, UInt32.le_iff_toNat_le.1 hdone, UInt64.mul?_eq_none.1 hproduct⟩
    · cases he
  · rintro ⟨rfl, hdone, hbursts⟩
    have hproduct : orOverflow (recipe.outputQuantity.mul? j.quantity) .recipeOutput =
        .error (.overflow .recipeOutput) := orFail_error.2 ⟨UInt64.mul?_eq_none.2 hbursts, rfl⟩
    refine ⟨⟨t, ?_⟩, rfl⟩
    rw [finishJob, if_pos (UInt32.le_iff_toNat_le.2 hdone)]
    exact Action.bind_error.2 (Or.inl (Action.lift_error.2 ⟨hproduct, rfl⟩))

theorem workOn_recipeOverflow (hlines : scaledInputs recipe.inputs j.quantity = .ok lines) :
    ((∃ t', (workOn j recipe n).run t = .error e t') ∧ e.isRecipeOverflow) ↔
      e = .overflow .recipeOutput ∧ t.Supplies j recipe ∧
        recipe.workRequired.toNat ≤ j.progress.toNat + n.toNat ∧ j.Bursts recipe := by
  have hscaled := scaledInputs_ok hlines
  rw [workOn_run hlines]
  by_cases hoffers : lines.all fun i => t.inventory.has (j.stockKey i.1) i.2
  · rw [if_pos hoffers]
    cases hdraw : (drawLines j lines).run t with
    | ok _ t₁ =>
        have hsupplies : t.Supplies j recipe := fun item =>
          Nat.le_of_add_left_le (drawLines_stock hscaled hdraw item).le
        rw [Action.run_bind hdraw, finishJob_recipeOverflow, toNat_advanceTo, and_iff_right hsupplies]
        simp only [Nat.le_min, Nat.le_refl, and_true]
    | error e' t₁ =>
        refine iff_of_false ?_ fun h => ?_
        · rintro ⟨⟨t', h⟩, he⟩
          rcases Action.bind_error.1 h with h | ⟨_, _, h, -⟩
          · exact Failure.not_isOutOfStock he (drawLines_error h)
          · rw [hdraw] at h
            cases h
        · obtain ⟨t', hdrawn⟩ := exists_drawLines hscaled h.2.1
          rw [hdraw] at hdrawn
          cases hdrawn
  · rw [if_neg hoffers]
    refine iff_of_false ?_ fun h => hoffers ((offers_iff hscaled).2 h.2.1.offers)
    rintro ⟨⟨t', h⟩, -⟩
    cases h

theorem advanceJob_recipeOverflow (hj : t.jobs.get? j.id = some j)
    (hr : t.recipes.get? j.recipe = some recipe) (hb : t.buildings.get? j.building = some building)
    (hlines : scaledInputs recipe.inputs j.quantity = .ok lines) :
    ((∃ t', (advanceJob j.id n).run t = .error e t') ∧ e.isRecipeOverflow) ↔
      building.status = .active ∧ building.company = j.company ∧ e = .overflow .recipeOutput ∧
        (j.progress < recipe.workRequired →
          t.Supplies j recipe ∧ recipe.workRequired.toNat ≤ j.progress.toNat + n.toNat) ∧ j.Bursts recipe := by
  simp only [advanceJob_error hj hr hb, exists_and_left, and_assoc]
  refine and_congr_right fun _ => and_congr_right fun _ => ?_
  by_cases hneeds : j.progress < recipe.workRequired
  · simp only [if_pos hneeds, workOn_recipeOverflow hlines, forall_prop_of_true hneeds, and_assoc]
  · have hdone : recipe.workRequired.toNat ≤ j.progress.toNat :=
      UInt32.le_iff_toNat_le.1 (UInt32.not_lt.1 hneeds)
    simp only [if_neg hneeds, finishJob_recipeOverflow, and_iff_right hdone, forall_prop_of_false hneeds, true_and]

theorem advanceJob_homeless (hj : t.jobs.get? j.id = some j) (hr : t.recipes.get? j.recipe = some recipe)
    (hb : t.buildings.get? j.building = none) :
    (advanceJob j.id n).run t = .error (.notFound .building j.building.val) t := by
  rw [advanceJob, Action.run_bind (Action.get_ok.2 ⟨rfl, rfl⟩),
    Action.run_bind (Action.lift_ok.2 ⟨Roster.require_ok.2 hj, rfl⟩),
    Action.run_bind (Action.lift_ok.2 ⟨Roster.require_ok.2 hr, rfl⟩)]
  exact Action.bind_error.2 (Or.inl (Action.lift_error.2 ⟨Roster.require_error.2 ⟨hb, rfl⟩, rfl⟩))

/-- A turn of a job whose inputs have a product fails at the arithmetic of its recipe exactly where it would
complete the job and the output has none. -/
theorem runJob_recipeOverflow (hj : t.jobs.get? j.id = some j) (hr : t.recipes.get? j.recipe = some recipe)
    (hlines : scaledInputs recipe.inputs j.quantity = .ok lines) :
    ((∃ t', (runJob multipliers cfg j.id).run t = .error e t') ∧ e.isRecipeOverflow) ↔
      e = .overflow .recipeOutput ∧ j.Finishes multipliers cfg recipe t ∧ j.Bursts recipe := by
  constructor
  · rintro ⟨⟨t', h⟩, he⟩
    rcases (runJob_error hj).1 h with ⟨hstep, -⟩ | ⟨n, hn, hadvance⟩
    · rw [(progressStep_error hstep).1] at he
      cases he
    · cases hb : t.buildings.get? j.building with
      | none =>
          rw [advanceJob_homeless hj hr hb] at hadvance
          cases hadvance
          cases he
      | some building =>
          obtain ⟨hactive, hown, houtput, hneeds, hbursts⟩ :=
            (advanceJob_recipeOverflow hj hr hb hlines).1 ⟨⟨t', hadvance⟩, he⟩
          exact ⟨houtput, ⟨⟨building, hb, hactive, hown⟩, n, hn, hneeds⟩, hbursts⟩
  · rintro ⟨houtput, ⟨⟨building, hb, hactive, hown⟩, n, hn, hneeds⟩, hbursts⟩
    obtain ⟨⟨t', hadvance⟩, he⟩ :=
      (advanceJob_recipeOverflow hj hr hb hlines).2 ⟨hactive, hown, houtput, hneeds, hbursts⟩
    exact ⟨⟨t', (runJob_error hj).2 (Or.inr ⟨n, hn, hadvance⟩)⟩, he⟩

end

/-- What an accepted job may fail at. No turn of it fails at the inputs of its recipe, and a turn fails at the
output exactly where it would complete the job and the output for the whole quantity is no word. In a world
whose jobs are in order every production that comes to the job finds it with the recipe and the quantity that
were accepted. -/
theorem admitted_overflow_iff {r : JobRequest} {id : JobId} {w w₁ : World}
    (hstart : (startJob r).run w = .ok id w₁) :
    ∃ recipe, w.recipes.get? r.recipe = some recipe ∧
      (∀ t j multipliers cfg e, t.jobs.get? id = some j → j.recipe = r.recipe → j.quantity = r.quantity →
        t.recipes.get? r.recipe = some recipe →
        (((∃ t', (runJob multipliers cfg id).run t = .error e t') ∧ e.isRecipeOverflow) ↔
          e = .overflow .recipeOutput ∧ j.Finishes multipliers cfg recipe t ∧ j.Bursts recipe)) ∧
      (UpTo w.nextId w.jobs → ∀ log v multipliers cfg t, History id w₁ log v → Turn multipliers cfg v id t →
        t.recipes.get? r.recipe = some recipe ∧
          ∃ j, t.jobs.get? id = some j ∧ j.recipe = r.recipe ∧ j.quantity = r.quantity) := by
  obtain ⟨-, -, building, recipe, inputs, -, hr, -, -, -, -, hinputs, hid, rfl⟩ := startJob_ok hstart
  refine ⟨recipe, hr, fun t j multipliers cfg e hj hrecipe hquantity hfound => ?_,
    fun hw log v m cfg t hlog hturn => ?_⟩
  · obtain rfl : j.id = id := Roster.key_of_get? hj
    rw [← hrecipe] at hfound
    rw [← hquantity] at hinputs
    exact runJob_recipeOverflow hj hfound hinputs
  · have hjobs := hw.append (a := r.job id building.region w.clock.currentTick) (m := id.val)
      (Nat.lt_of_succ_le hid.ge) (Nat.le_refl _)
    obtain ⟨hrecipes, hnext, hlater⟩ := hlog.continues hjobs
    obtain ⟨j, hj, hproceeds⟩ := hlater.found hnext hjobs (List.mem_append_right _ (List.mem_singleton_self _))
    obtain ⟨hsame, hkept, -⟩ := hturn.others (hlater.upTo hnext hjobs).ascending
    refine ⟨?_, j, hsame.trans hj, ?_, ?_⟩
    · rw [hkept, hrecipes]
      exact hr
    · exact congrArg Job.recipe hproceeds.terms
    · exact congrArg Job.quantity hproceeds.terms

/-- A pit that yields two units of ore for each unit of a batch, out of nothing. -/
def pit : World :=
  { World.empty with
    regions := [⟨⟨1⟩, "north"⟩]
    items := [⟨⟨2⟩, "ore"⟩]
    companies := [⟨⟨3⟩, "mine", 0, 0, false⟩]
    recipes := [⟨⟨4⟩, "mining", "pit", [], ⟨2⟩, 2, 1⟩]
    buildings := [⟨⟨5⟩, ⟨3⟩, ⟨1⟩, "pit", .active, 1⟩]
    nextId := 5 }

/-- The largest batch whose output is a word: no turn of it fails at the arithmetic of its recipe. -/
theorem admitted_overflow_iff_pit :
    ∃ w₁, (startJob ⟨⟨3⟩, ⟨5⟩, ⟨4⟩, 9223372036854775807⟩).run pit = .ok ⟨6⟩ w₁ ∧
      ∀ log v multipliers cfg t e t', History ⟨6⟩ w₁ log v → Turn multipliers cfg v ⟨6⟩ t →
        (runJob multipliers cfg ⟨6⟩).run t = .error e t' → ¬ e.isRecipeOverflow := by
  have hjobs : UpTo pit.nextId pit.jobs := ⟨by decide +kernel, by decide +kernel⟩
  have hstart : ((startJob ⟨⟨3⟩, ⟨5⟩, ⟨4⟩, 9223372036854775807⟩).outcome pit).map (·.1) = .ok ⟨6⟩ := by
    decide +kernel
  obtain ⟨⟨_, w₁⟩, hstart, rfl⟩ := Check.map_ok.1 hstart
  have hstart := Action.outcome_ok.1 hstart
  obtain ⟨recipe, hrecipe, hturn, hlater⟩ := admitted_overflow_iff hstart
  obtain rfl : ⟨⟨4⟩, "mining", "pit", [], ⟨2⟩, 2, 1⟩ = recipe := by
    have hpit : pit.recipes.get? ⟨4⟩ = some ⟨⟨4⟩, "mining", "pit", [], ⟨2⟩, 2, 1⟩ := by decide +kernel
    exact Option.some_inj.1 (hpit.symm.trans hrecipe)
  refine ⟨w₁, hstart, fun log v m cfg t e t' hlog hmine hfail he => ?_⟩
  obtain ⟨hfound, j, hj, hjrecipe, hquantity⟩ := hlater hjobs log v m cfg t hlog hmine
  obtain ⟨-, -, hbursts⟩ := (hturn t j m cfg e hj hjrecipe hquantity hfound).1 ⟨⟨t', hfail⟩, he⟩
  rw [Job.Bursts, hquantity] at hbursts
  exact absurd hbursts (by decide)

/-- One unit more is accepted as well. The turn that completes this batch fails, with the production and the
tick. -/
theorem overflowing_job_aborts : pit.check = .ok () ∧
    ∃ w₁, (startJob ⟨⟨3⟩, ⟨5⟩, ⟨4⟩, 9223372036854775808⟩).run pit = .ok ⟨6⟩ w₁ ∧
      (∃ w', (runProduction [] {}).run w₁ = .error (.overflow .recipeOutput) w') ∧
      ∃ w', (step {}).run w₁ = .error (.overflow .recipeOutput) w' := by
  let w₁ : World := { pit with
    nextId := 6, jobs := [JobRequest.job ⟨⟨3⟩, ⟨5⟩, ⟨4⟩, 9223372036854775808⟩ ⟨6⟩ ⟨1⟩ 0] }
  have hproduction : ((runProduction [] {}).outcome w₁).map (·.1.blocked) = .error (.overflow .recipeOutput) := by
    decide +kernel
  have htick : ((step {}).outcome w₁).map (·.1.1.tick) = .error (.overflow .recipeOutput) := by decide +kernel
  refine ⟨by decide +kernel, w₁, Action.outcome_ok.1 (by decide +kernel), ?_, ?_⟩
  · exact Action.outcome_error.1 (Check.map_error.1 hproduction)
  · exact Action.outcome_error.1 (Check.map_error.1 htick)

end Mercantile
