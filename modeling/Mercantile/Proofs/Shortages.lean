import Mercantile.Proofs.Goods
import Mercantile.Proofs.Lifecycles
import Mercantile.Proofs.References

/-!
Jobs and what is short for them. A job looks at each line of its recipe on its own (`World.Offers`) and then
draws the lines one after the other, for which they must be there together (`World.Supplies`). The two differ
only where an item stands on more than one line (`World.Offers.supplies`). Where they agree a job draws all of
its inputs or is blocked with nothing drawn, and production never runs out of stock; where they differ
(`Overdraws`) the drawing fails half way, and production with it.
-/

namespace Mercantile

variable {w w' t t' : World} {j : Job} {recipe : Recipe} {building : Building}

/-- For every item, what the job draws in a tick is in its company's stock in its region. -/
def World.Supplies (w : World) (j : Job) (recipe : Recipe) : Prop :=
  ∀ item, inputsOf recipe.inputs j.quantity item ≤ (w.inventory.quantity (j.stockKey item)).toNat

/-- Each line of the recipe, on its own, is in stock. -/
def World.Offers (w : World) (j : Job) (recipe : Recipe) : Prop :=
  ∀ i ∈ recipe.inputs, i.quantity.toNat * j.quantity.toNat ≤ (w.inventory.quantity (j.stockKey i.item)).toNat

theorem le_inputsOf {i : RecipeInput} {rs : List RecipeInput} {q : Quantity} (h : i ∈ rs) :
    i.quantity.toNat * q.toNat ≤ inputsOf rs q i.item := by
  induction rs with
  | nil => cases h
  | cons k rs ih =>
      rw [inputsOf_cons]
      rcases List.mem_cons.1 h with rfl | h
      · rw [if_pos rfl]
        exact Nat.le_add_right _ _
      · exact Nat.le_trans (ih h) (Nat.le_add_left _ _)

theorem inputsOf_eq_zero {rs : List RecipeInput} {q : Quantity} {item : ItemId}
    (h : item ∉ rs.map (·.item)) : inputsOf rs q item = 0 := by
  refine List.sum_eq_zero fun n hn => ?_
  obtain ⟨i, hi, rfl⟩ := List.mem_map.1 hn
  exact if_neg fun he => h (List.mem_map.2 ⟨i, hi, he⟩)

/-- An item that stands on one line is drawn by that line. -/
theorem inputsOf_of_mem {i : RecipeInput} {rs : List RecipeInput} {q : Quantity}
    (hrs : (rs.map (·.item)).Nodup) (h : i ∈ rs) : inputsOf rs q i.item = i.quantity.toNat * q.toNat := by
  induction rs with
  | nil => cases h
  | cons k rs ih =>
      rw [List.map_cons, List.nodup_cons] at hrs
      rw [inputsOf_cons]
      rcases List.mem_cons.1 h with rfl | h
      · rw [if_pos rfl, inputsOf_eq_zero hrs.1, Nat.add_zero]
      · have hne : k.item ≠ i.item := fun he => hrs.1 (List.mem_map.2 ⟨i, h, he.symm⟩)
        rw [if_neg hne, ih hrs.2 h, Nat.zero_add]

theorem World.Supplies.offers (h : w.Supplies j recipe) : w.Offers j recipe :=
  fun i hi => Nat.le_trans (le_inputsOf hi) (h i.item)

/-- Where no item stands on two lines, what is there line by line is there in total. -/
theorem World.Offers.supplies (h : w.Offers j recipe) (hlines : (recipe.inputs.map (·.item)).Nodup) :
    w.Supplies j recipe := by
  intro item
  by_cases hitem : item ∈ recipe.inputs.map (·.item)
  · obtain ⟨i, hi, rfl⟩ := List.mem_map.1 hitem
    rw [inputsOf_of_mem hlines hi]
    exact h i hi
  · rw [inputsOf_eq_zero hitem]
    exact Nat.zero_le _

/-- A place does not hold what is to be taken from it. -/
def Failure.isOutOfStock : Failure → Bool
  | .insufficientInventory _ _ _ _ _ => true
  | _ => false

theorem Job.stockKey_inj {i k : ItemId} : j.stockKey i = j.stockKey k ↔ i = k := by
  simp only [stockKey, StockKey.mk.injEq, true_and]

/-- Takes the lines of a recipe from the stock of a job, one after the other. -/
def drawLines (j : Job) (lines : List (ItemId × Quantity)) : Action World Unit :=
  lines.forM fun i => World.removeStock (j.stockKey i.1) i.2

section

variable {rs : List RecipeInput} {lines : List (ItemId × Quantity)}

/-- Drawing takes the total of every item from the stock of the job. -/
theorem drawLines_stock (hlines : List.Forall₂ (RecipeInput.Scaled j.quantity) rs lines)
    (h : (drawLines j lines).run w = .ok () w') (item : ItemId) :
    (w'.inventory.quantity (j.stockKey item)).toNat + inputsOf rs j.quantity item =
      (w.inventory.quantity (j.stockKey item)).toNat := by
  induction hlines generalizing w with
  | nil =>
      obtain ⟨-, rfl⟩ := Action.pure_ok.1 h
      rfl
  | @cons i line rs lines hline _ ih =>
      obtain ⟨w₁, hfirst, hrest⟩ := Action.forM_cons_ok.1 h
      obtain ⟨inv, hinv, rfl⟩ := World.removeStock_ok.1 hfirst
      have hremoved := Inventory.quantity_remove hinv (j.stockKey item)
      have hdrawn := ih hrest
      simp only [Job.stockKey_inj, hline.item, @eq_comm _ item, hline.units] at hremoved
      rw [inputsOf_cons]
      dsimp only at hdrawn
      omega

/-- Drawing leaves all other stocks alone. -/
theorem drawLines_elsewhere (h : (drawLines j lines).run w = .ok () w') {k : StockKey}
    (hk : ∀ item, k ≠ j.stockKey item) : w'.inventory.quantity k = w.inventory.quantity k := by
  refine Action.forM_keeps (P := fun t => t.inventory.quantity k = w.inventory.quantity k)
    (fun line _ t t' ht hrun => ?_) rfl h
  obtain ⟨inv, hinv, rfl⟩ := World.removeStock_ok.1 hrun
  rw [← ht]
  exact Inventory.quantity_remove_of_ne hinv (hk line.1)

/-- The lines are drawn if they are there together. -/
theorem exists_drawLines (hlines : List.Forall₂ (RecipeInput.Scaled j.quantity) rs lines)
    (h : ∀ item, inputsOf rs j.quantity item ≤ (w.inventory.quantity (j.stockKey item)).toNat) :
    ∃ w', (drawLines j lines).run w = .ok () w' := by
  induction hlines generalizing w with
  | nil => exact ⟨w, rfl⟩
  | @cons i line rs lines hline _ ih =>
      have hfirst : line.2 ≤ w.inventory.quantity (j.stockKey line.1) := by
        have htotal := h i.item
        rw [inputsOf_cons, if_pos rfl] at htotal
        rw [UInt64.le_iff_toNat_le, hline.units, hline.item]
        omega
      obtain ⟨inv, hinv⟩ : ∃ inv, w.inventory.remove (j.stockKey line.1) line.2 = .ok inv :=
        ⟨_, Inventory.remove_ok.2 ⟨hfirst, rfl⟩⟩
      obtain ⟨w', hrest⟩ := ih (w := { w with inventory := inv }) fun item => by
        have htotal := h item
        have hremoved := Inventory.quantity_remove hinv (j.stockKey item)
        rw [inputsOf_cons] at htotal
        simp only [Job.stockKey_inj, hline.item, @eq_comm _ item, hline.units] at hremoved
        dsimp only
        omega
      exact ⟨w', Action.forM_cons_ok.2 ⟨_, World.removeStock_ok.2 ⟨inv, hinv, rfl⟩, hrest⟩⟩

/-- Drawing fails for want of stock only. -/
theorem drawLines_error {e : Failure} (h : (drawLines j lines).run w = .error e w') : e.isOutOfStock := by
  have hkeeps : (drawLines j lines).Keeps (fun _ => True) (fun e => e.isOutOfStock) w :=
    .forM (fun line _ t _ => .update trivial (fun _ _ => trivial) fun e he => ?_) trivial
  · exact (hkeeps.error e w' h).2
  · rcases Check.bind_error.1 he with hremove | ⟨_, -, hnone⟩
    · rw [Inventory.remove] at hremove
      split at hremove
      · cases hremove
        rfl
      · cases hremove
    · cases hnone

theorem offers_iff (hlines : List.Forall₂ (RecipeInput.Scaled j.quantity) rs lines) :
    (lines.all fun i => w.inventory.has (j.stockKey i.1) i.2) ↔ ∀ i ∈ rs,
      i.quantity.toNat * j.quantity.toNat ≤ (w.inventory.quantity (j.stockKey i.item)).toNat := by
  induction hlines with
  | nil => simp
  | @cons i line rs lines hline _ ih =>
      rw [List.all_cons, Bool.and_eq_true, ih, List.forall_mem_cons]
      refine and_congr_left fun _ => ?_
      rw [Inventory.has, decide_eq_true_iff, UInt64.le_iff_toNat_le, hline.units, hline.item]

end

/-- Nothing changes but the state of a job, which is blocked. -/
def Blocks (j : Job) (t t' : World) : Prop :=
  t' = t.modifyJob j.id fun k => { k with state := .blocked }

theorem Blocks.state (h : Blocks j t t') {k : Job} (hk : t'.jobs.get? j.id = some k) : k.state = .blocked := by
  have hjobs : t'.jobs.get? j.id = (t.jobs.get? j.id).map fun k => { k with state := .blocked } := by
    rw [h]
    exact Roster.get?_modify_self fun _ => rfl
  rw [hjobs] at hk
  obtain ⟨k', -, rfl⟩ := Option.map_eq_some_iff.1 hk
  rfl

/-- A job has drawn its inputs, all of them, from its company's stock in its region, which then has what the job
yields in case this completes it. No other stock has changed. -/
structure Draws (j : Job) (recipe : Recipe) (t t' : World) : Prop where
  supplies : t.Supplies j recipe
  stock : ∀ item, (t'.inventory.quantity (j.stockKey item)).toNat + inputsOf recipe.inputs j.quantity item =
    (t.inventory.quantity (j.stockKey item)).toNat + j.madeOf t.recipes t'.jobs item
  elsewhere : ∀ k, (∀ item, k ≠ j.stockKey item) → t'.inventory.quantity k = t.inventory.quantity k
  state : ∃ k, t'.jobs.get? j.id = some k ∧ (k.state = .running ∨ k.state = .completed)

/-- A job that has what it needs to work on finds each of its inputs in stock, but not all of them together. -/
structure Overdraws (multipliers : MultiplierTable) (cfg : ProductionConfig) (j : Job) (recipe : Recipe)
    (building : Building) (t : World) : Prop where
  status : building.status = .active
  company : building.company = j.company
  needs : j.progress < recipe.workRequired
  step : ∃ n, progressStep cfg.baseProgressPerTick (multipliers.of j.company).operations = .ok n
  scaled : ∃ lines, scaledInputs recipe.inputs j.quantity = .ok lines
  offers : t.Offers j recipe
  short : ¬ t.Supplies j recipe

section

variable {n progress : UInt32} {lines : List (ItemId × Quantity)} {o : JobOutcome} {e : Failure}

theorem finishJob_stock (hj : w.jobs.get? j.id = some j) (hr : w.recipes.get? j.recipe = some recipe)
    (h : (finishJob j recipe progress).run w = .ok o w') :
    (∃ k, w'.jobs.get? j.id = some k ∧ (k.state = .running ∨ k.state = .completed)) ∧
      (∀ item, (w'.inventory.quantity (j.stockKey item)).toNat =
        (w.inventory.quantity (j.stockKey item)).toNat + j.madeOf w.recipes w'.jobs item) ∧
      ∀ k, (∀ item, k ≠ j.stockKey item) → w'.inventory.quantity k = w.inventory.quantity k := by
  have hfound (state : JobState) : (w.jobs.modify j.id fun k => { k with state, progress }).get? j.id =
      some { j with state, progress } := Roster.get?_modify_found hj fun _ => rfl
  rcases finishJob_ok h with ⟨-, output, inv, houtput, hinv, rfl⟩ | ⟨-, rfl⟩
  · refine ⟨⟨_, hfound .completed, Or.inr rfl⟩, fun item => ?_, fun k hk => ?_⟩
    · have hadded := Inventory.quantity_add hinv (j.stockKey item)
      simp only [Job.stockKey_inj, @eq_comm _ item, houtput] at hadded
      simp only [Job.madeOf, hr, hfound .completed, true_and]
      exact hadded
    · exact Inventory.quantity_add_of_ne hinv (hk _)
  · refine ⟨⟨_, hfound .running, Or.inl rfl⟩, fun item => ?_, fun k _ => rfl⟩
    simp only [Job.madeOf, hr, World.modifyJob, hfound .running, reduceCtorEq, false_and, if_false]
    rfl

/-- To finish a job fails only where the output is too large, or the stock with it. -/
theorem finishJob_overflows (h : (finishJob j recipe progress).run w = .error e w') :
    recipe.workRequired ≤ progress ∧
      (recipe.outputQuantity.mul? j.quantity = none ∧ e = .overflow .recipeOutput ∨
        e = .overflow .inventoryQuantity) := by
  rw [finishJob] at h
  split at h
  · next hdone =>
    refine ⟨hdone, ?_⟩
    simp only [Action.bind_error, Action.lift_error, orFail_error, World.addStock, Action.update_error,
      Check.bind_error, Inventory.add, Check.pure_error, and_false, exists_false, or_false] at h
    rcases h with ⟨hproduct, -⟩ | ⟨_, _, -, ⟨⟨-, rfl⟩, -⟩ | ⟨_, _, -, hset⟩⟩
    · exact Or.inl hproduct
    · exact Or.inr rfl
    · rcases hset with hset | ⟨_, _, -, hset⟩ <;> cases hset
  · rcases Action.bind_error.1 h with hset | ⟨_, _, -, hset⟩ <;> cases hset

/-- To finish a job nothing is taken from a stock. -/
theorem finishJob_error (h : (finishJob j recipe progress).run w = .error e w') : ¬ e.isOutOfStock := by
  obtain ⟨-, ⟨-, rfl⟩ | rfl⟩ := finishJob_overflows h
  · exact Bool.false_ne_true
  · exact Bool.false_ne_true

/-- Blocking a job puts back the progress that it has. -/
theorem blocked_eq (hj : t.jobs.get? j.id = some j) :
    (t.modifyJob j.id fun k => { k with state := .blocked, progress := j.progress }) =
      t.modifyJob j.id fun k => { k with state := .blocked } := by
  obtain ⟨before, after, -, hmodify⟩ := Roster.get?_split hj
  rw [World.modifyJob, World.modifyJob, hmodify, hmodify]

theorem workOn_run (hlines : scaledInputs recipe.inputs j.quantity = .ok lines) :
    (workOn j recipe n).run w =
      if lines.all fun i => w.inventory.has (j.stockKey i.1) i.2 then
        (drawLines j lines >>= fun _ => finishJob j recipe (advanceTo j.progress n recipe.workRequired)).run w
      else .ok .blocked (w.modifyJob j.id fun k => { k with state := .blocked, progress := j.progress }) := by
  rw [workOn, Action.run_bind (Action.lift_ok.2 ⟨hlines, rfl⟩), Action.run_bind (Action.get_ok.2 ⟨rfl, rfl⟩)]
  dsimp only
  split
  · rfl
  · rfl

theorem workOn_ok (hj : t.jobs.get? j.id = some j) (hr : t.recipes.get? j.recipe = some recipe)
    (h : (workOn j recipe n).run t = .ok o t') :
    Draws j recipe t t' ∨ Blocks j t t' ∧ ¬ t.Supplies j recipe := by
  obtain ⟨lines, hlines⟩ : ∃ lines, scaledInputs recipe.inputs j.quantity = .ok lines := by
    obtain ⟨lines, _, hlift, -⟩ := Action.bind_ok.1 h
    exact ⟨lines, (Action.lift_ok.1 hlift).1⟩
  have hscaled := scaledInputs_ok hlines
  rw [workOn_run hlines] at h
  by_cases hoffers : lines.all fun i => t.inventory.has (j.stockKey i.1) i.2
  · rw [if_pos hoffers] at h
    obtain ⟨_, t₁, hdraw, hfinish⟩ := Action.bind_ok.1 h
    have hdrawn := drawLines_stock hscaled hdraw
    have hframe : t₁ = { t with inventory := t₁.inventory } := forM_removeStock_frame hdraw
    have hrecipes : t₁.recipes = t.recipes := by rw [hframe]
    have hjobs : t₁.jobs = t.jobs := by rw [hframe]
    obtain ⟨hstate, hmade, helsewhere⟩ := finishJob_stock (hjobs ▸ hj) (hrecipes ▸ hr) hfinish
    rw [hrecipes] at hmade
    refine Or.inl ⟨fun item => ?_, fun item => ?_, fun k hk => ?_, hstate⟩
    · rw [← hdrawn item]
      exact Nat.le_add_left _ _
    · rw [hmade item, ← hdrawn item]
      omega
    · exact (helsewhere k hk).trans (drawLines_elsewhere hdraw hk)
  · rw [if_neg hoffers, EStateM.Result.ok.injEq] at h
    refine Or.inr ⟨h.2.symm.trans (blocked_eq hj), fun hsupplies => hoffers ?_⟩
    exact (offers_iff hscaled).2 hsupplies.offers

/-- The work on a job runs out of stock where its inputs are there one by one, but not together. -/
theorem workOn_outOfStock : (∃ e t', (workOn j recipe n).run t = .error e t' ∧ e.isOutOfStock) ↔
    (∃ lines, scaledInputs recipe.inputs j.quantity = .ok lines) ∧ t.Offers j recipe ∧
      ¬ t.Supplies j recipe := by
  cases hlines : scaledInputs recipe.inputs j.quantity with
  | error e =>
      have hfail : (workOn j recipe n).run t = .error e t :=
        Action.bind_error.2 (Or.inl (Action.lift_error.2 ⟨hlines, rfl⟩))
      constructor
      · rintro ⟨e', t', h, he⟩
        rw [hfail] at h
        cases h
        rw [scaledInputs_error hlines] at he
        cases he
      · rintro ⟨⟨lines, hnone⟩, -⟩
        cases hnone
  | ok lines =>
      have hscaled := scaledInputs_ok hlines
      rw [workOn_run hlines, and_iff_right ⟨lines, rfl⟩]
      constructor
      · rintro ⟨e, t', h, he⟩
        by_cases hoffers : lines.all fun i => t.inventory.has (j.stockKey i.1) i.2
        · rw [if_pos hoffers] at h
          refine ⟨(offers_iff hscaled).1 hoffers, fun hsupplies => ?_⟩
          obtain ⟨t₁, hdraw⟩ := exists_drawLines hscaled hsupplies
          rw [Action.run_bind hdraw] at h
          exact finishJob_error h he
        · rw [if_neg hoffers] at h
          cases h
      · rintro ⟨hoffers, hshort⟩
        rw [if_pos ((offers_iff hscaled).2 hoffers)]
        cases hdraw : (drawLines j lines).run t with
        | ok _ t₁ =>
            refine absurd (fun item => ?_) hshort
            rw [← drawLines_stock hscaled hdraw item]
            exact Nat.le_add_left _ _
        | error e t₁ => exact ⟨e, t₁, Action.bind_error.2 (Or.inl hdraw), drawLines_error hdraw⟩

theorem advanceJob_run (hj : t.jobs.get? j.id = some j) (hr : t.recipes.get? j.recipe = some recipe)
    (hb : t.buildings.get? j.building = some building) :
    (advanceJob j.id n).run t =
      if building.status ≠ .active ∨ building.company ≠ j.company then
        .ok .blocked (t.modifyJob j.id fun k => { k with state := .blocked, progress := j.progress })
      else if j.progress < recipe.workRequired then (workOn j recipe n).run t
      else (finishJob j recipe j.progress).run t := by
  rw [advanceJob, Action.run_bind (Action.get_ok.2 ⟨rfl, rfl⟩),
    Action.run_bind (Action.lift_ok.2 ⟨Roster.require_ok.2 hj, rfl⟩),
    Action.run_bind (Action.lift_ok.2 ⟨Roster.require_ok.2 hr, rfl⟩),
    Action.run_bind (Action.lift_ok.2 ⟨Roster.require_ok.2 hb, rfl⟩)]
  split
  · rfl
  · split <;> rfl

/-- A turn fails where the work fails, or the completion if there is no work left. -/
theorem advanceJob_error (hj : t.jobs.get? j.id = some j) (hr : t.recipes.get? j.recipe = some recipe)
    (hb : t.buildings.get? j.building = some building) :
    (advanceJob j.id n).run t = .error e t' ↔
      (building.status = .active ∧ building.company = j.company) ∧
        if j.progress < recipe.workRequired then (workOn j recipe n).run t = .error e t'
        else (finishJob j recipe j.progress).run t = .error e t' := by
  rw [advanceJob_run hj hr hb]
  by_cases hidle : building.status ≠ .active ∨ building.company ≠ j.company
  · rw [if_pos hidle]
    refine iff_of_false nofun ?_
    rintro ⟨⟨hactive, hown⟩, -⟩
    exact hidle.elim (absurd hactive) (absurd hown)
  · rw [if_neg hidle]
    rw [not_or, not_not, not_not] at hidle
    rw [and_iff_right hidle]
    split <;> rfl

theorem advanceJob_outOfStock (hj : t.jobs.get? j.id = some j) (hr : t.recipes.get? j.recipe = some recipe)
    (hb : t.buildings.get? j.building = some building) :
    (∃ e t', (advanceJob j.id n).run t = .error e t' ∧ e.isOutOfStock) ↔
      building.status = .active ∧ building.company = j.company ∧ j.progress < recipe.workRequired ∧
        (∃ lines, scaledInputs recipe.inputs j.quantity = .ok lines) ∧ t.Offers j recipe ∧
          ¬ t.Supplies j recipe := by
  simp only [advanceJob_error hj hr hb, and_assoc, exists_and_left]
  refine and_congr_right fun _ => and_congr_right fun _ => ?_
  by_cases hneeds : j.progress < recipe.workRequired
  · simp only [if_pos hneeds, and_iff_right hneeds]
    exact workOn_outOfStock
  · simp only [if_neg hneeds]
    refine iff_of_false ?_ fun h => hneeds h.1
    rintro ⟨e, t', h, he⟩
    exact finishJob_error h he

variable {multipliers : MultiplierTable} {cfg : ProductionConfig} {r : JobId × JobOutcome}

/-- The turn of a job that needs work: it draws all of its inputs, or it is blocked because something is short
or its building does not work for it. -/
theorem runJob_needs (hj : t.jobs.get? j.id = some j) (hr : t.recipes.get? j.recipe = some recipe)
    (hb : t.buildings.get? j.building = some building) (hneeds : j.progress < recipe.workRequired)
    (h : (runJob multipliers cfg j.id).run t = .ok r t') :
    Draws j recipe t t' ∨ Blocks j t t' ∧
      (¬ t.Supplies j recipe ∨ building.status ≠ .active ∨ building.company ≠ j.company) := by
  obtain ⟨-, n, h⟩ := runJob_ok h
  rw [advanceJob_run hj hr hb] at h
  by_cases hidle : building.status ≠ .active ∨ building.company ≠ j.company
  · rw [if_pos hidle, EStateM.Result.ok.injEq] at h
    exact Or.inr ⟨h.2.symm.trans (blocked_eq hj), Or.inr hidle⟩
  · rw [if_neg hidle, if_pos hneeds] at h
    exact (workOn_ok hj hr h).imp_right fun hblocked => ⟨hblocked.1, Or.inl hblocked.2⟩

theorem runJob_run (hj : t.jobs.get? j.id = some j) :
    (runJob multipliers cfg j.id).run t = (do
      let n ← liftM (progressStep cfg.baseProgressPerTick (multipliers.of j.company).operations)
      (fun o => (j.id, o)) <$> advanceJob j.id n : Action World (JobId × JobOutcome)).run t := by
  rw [runJob, Action.run_bind (Action.get_ok.2 ⟨rfl, rfl⟩),
    Action.run_bind (Action.lift_ok.2 ⟨Roster.require_ok.2 hj, rfl⟩)]
  rfl

theorem runJob_error (hj : t.jobs.get? j.id = some j) :
    (runJob multipliers cfg j.id).run t = .error e t' ↔
      (progressStep cfg.baseProgressPerTick (multipliers.of j.company).operations = .error e ∧ t' = t) ∨
        ∃ n, progressStep cfg.baseProgressPerTick (multipliers.of j.company).operations = .ok n ∧
          (advanceJob j.id n).run t = .error e t' := by
  rw [runJob_run hj, Action.bind_error]
  simp only [Action.lift_error, Action.lift_ok, Action.map_error]
  constructor
  · rintro (hstep | ⟨n, _, ⟨hn, rfl⟩, hadvance⟩)
    · exact Or.inl hstep
    · exact Or.inr ⟨n, hn, hadvance⟩
  · rintro (hstep | ⟨n, hn, hadvance⟩)
    · exact Or.inl hstep
    · exact Or.inr ⟨n, t, ⟨hn, rfl⟩, hadvance⟩

/-- The turn of a job runs out of stock exactly where the job overdraws. -/
theorem runJob_outOfStock (hj : t.jobs.get? j.id = some j) (hr : t.recipes.get? j.recipe = some recipe)
    (hb : t.buildings.get? j.building = some building) :
    (∃ e t', (runJob multipliers cfg j.id).run t = .error e t' ∧ e.isOutOfStock) ↔
      Overdraws multipliers cfg j recipe building t := by
  constructor
  · rintro ⟨e, t', h, he⟩
    rcases (runJob_error hj).1 h with ⟨hstep, -⟩ | ⟨n, hn, hadvance⟩
    · rw [(progressStep_error hstep).1] at he
      cases he
    · obtain ⟨hactive, hown, hneeds, hlines, hoffers, hshort⟩ :=
        (advanceJob_outOfStock hj hr hb).1 ⟨e, t', hadvance, he⟩
      exact ⟨hactive, hown, hneeds, ⟨n, hn⟩, hlines, hoffers, hshort⟩
  · intro h
    obtain ⟨n, hn⟩ := h.step
    obtain ⟨e, t', hadvance, he⟩ :=
      (advanceJob_outOfStock hj hr hb).2 ⟨h.status, h.company, h.needs, h.scaled, h.offers, h.short⟩
    exact ⟨e, t', (runJob_error hj).2 (Or.inr ⟨n, hn, hadvance⟩), he⟩

end

section

variable {multipliers : MultiplierTable} {cfg : ProductionConfig}

/-- In the world `t` it is the turn of the job `i`: those before it on the list of unfinished jobs have had
theirs. -/
def Turn (multipliers : MultiplierTable) (cfg : ProductionConfig) (w : World) (i : JobId) (t : World) : Prop :=
  ∃ before after rs, w.activeJobs = before ++ i :: after ∧
    (before.mapM (runJob multipliers cfg)).run w = .ok rs t

/-- The turns of other jobs leave a job, the recipes and the buildings alone. -/
theorem runJobs_others {is : List JobId} {rs : List (JobId × JobOutcome)} {i : JobId} (hi : i ∉ is)
    (h : (is.mapM (runJob multipliers cfg)).run w = .ok rs t) :
    t.jobs.get? i = w.jobs.get? i ∧ t.recipes = w.recipes ∧ t.buildings = w.buildings := by
  refine Action.mapM_keeps (P := fun t => t.jobs.get? i = w.jobs.get? i ∧ t.recipes = w.recipes ∧
    t.buildings = w.buildings) (fun k hk u r u' hu hrun => ?_) ⟨rfl, rfl, rfl⟩ h
  obtain ⟨state, progress, hjobs⟩ := runJob_jobs hrun
  have hne : i ≠ k := fun he => hi (he ▸ hk)
  have hsame : u'.jobs.get? i = u.jobs.get? i := by
    rw [hjobs]
    exact Roster.get?_modify_of_ne (fun _ => rfl) hne
  have hframe := runJob_frame hrun
  have hrecipes : u'.recipes = u.recipes := by rw [hframe]
  have hbuildings : u'.buildings = u.buildings := by rw [hframe]
  exact ⟨hsame.trans hu.1, hrecipes.trans hu.2.1, hbuildings.trans hu.2.2⟩

/-- A job comes to its turn as it was. -/
theorem Turn.others {i : JobId} (h : Turn multipliers cfg w i t) (hw : w.jobs.Ascending) :
    t.jobs.get? i = w.jobs.get? i ∧ t.recipes = w.recipes ∧ t.buildings = w.buildings := by
  obtain ⟨before, after, rs, hlist, hrun⟩ := h
  have hnodup : w.activeJobs.Nodup := hw.nodup_filter _
  rw [hlist, List.nodup_append] at hnodup
  exact runJobs_others (fun hi => hnodup.2.2 i hi i List.mem_cons_self rfl) hrun

/-- When production succeeds each unfinished job has had its turn, after which it was left as it is. -/
theorem runProduction_turns {summary : ProductionSummary} (hw : w.jobs.Ascending)
    (h : (runProduction multipliers cfg).run w = .ok summary w') {i : JobId} (hi : i ∈ w.activeJobs) :
    ∃ t r t', Turn multipliers cfg w i t ∧ (runJob multipliers cfg i).run t = .ok r t' ∧
      w'.jobs.get? i = t'.jobs.get? i := by
  obtain ⟨outcomes, hall⟩ := runProduction_ok h
  obtain ⟨before, after, hlist⟩ := List.append_of_mem hi
  have hnodup : w.activeJobs.Nodup := hw.nodup_filter _
  rw [hlist] at hall hnodup
  obtain ⟨-, hlater, -⟩ := List.nodup_append.1 hnodup
  rw [List.mapM_append] at hall
  obtain ⟨rs, t, hbefore, hrest⟩ := Action.bind_ok.1 hall
  obtain ⟨_, _, hlast, hend⟩ := Action.bind_ok.1 hrest
  obtain ⟨r, t', rs', hturn, hafter, -⟩ := Action.mapM_cons_ok.1 hlast
  obtain ⟨-, rfl⟩ := Action.pure_ok.1 hend
  refine ⟨t, r, t', ⟨before, after, rs, hlist, hbefore⟩, hturn, ?_⟩
  exact (runJobs_others (List.nodup_cons.1 hlater).1 hafter).1

/-- Production fails where the turn of an unfinished job does. -/
theorem runProduction_error {e : Failure} : (runProduction multipliers cfg).run w = .error e w' ↔
    ∃ i t, Turn multipliers cfg w i t ∧ (runJob multipliers cfg i).run t = .error e w' := by
  have hrun : (runProduction multipliers cfg).run w = .error e w' ↔
      (w.activeJobs.mapM (runJob multipliers cfg)).run w = .error e w' := by
    rw [runProduction, Action.run_bind (Action.get_ok.2 ⟨rfl, rfl⟩)]
    rw [Action.bind_error]
    refine or_iff_left ?_
    rintro ⟨rs, t, -, hnone⟩
    cases hnone
  rw [hrun, Action.mapM_error]
  constructor
  · rintro ⟨before, i, after, rs, t, hlist, hbefore, hfail⟩
    exact ⟨i, t, ⟨before, after, rs, hlist, hbefore⟩, hfail⟩
  · rintro ⟨i, t, ⟨before, after, rs, hlist, hbefore⟩, hfail⟩
    exact ⟨before, i, after, rs, t, hlist, hbefore, hfail⟩

theorem Turn.mem {i : JobId} (h : Turn multipliers cfg w i t) : ∃ j ∈ w.jobs, j.id = i ∧ j.state.isActive := by
  obtain ⟨before, after, rs, hlist, -⟩ := h
  have hi : i ∈ w.activeJobs := by
    rw [hlist]
    exact List.mem_append_right _ List.mem_cons_self
  obtain ⟨j, hj, rfl⟩ := List.mem_map.1 hi
  obtain ⟨hmem, hactive⟩ := List.mem_filter.1 hj
  exact ⟨j, hmem, rfl, hactive⟩

end

/-- What a job refers to. -/
structure World.Employs (w : World) (j : Job) (recipe : Recipe) (building : Building) : Prop where
  recipe : w.recipes.get? j.recipe = some recipe
  building : w.buildings.get? j.building = some building

section

variable {multipliers : MultiplierTable} {cfg : ProductionConfig}

theorem World.exists_employs (hw : w.check = .ok ()) (hj : j ∈ w.jobs) :
    ∃ recipe building, w.Employs j recipe building := by
  obtain ⟨-, -, ⟨recipe, hrecipe⟩, building, hbuilding⟩ := (resolves_of_closed (closed_of_check hw)).job j hj
  exact ⟨recipe, building, hrecipe, hbuilding⟩

theorem World.jobs_ascending_of_check (hw : w.check = .ok ()) : w.jobs.Ascending :=
  (Roster.ascending_map Job.outline fun _ => rfl).1 (closed_of_check hw).jobs

/-- When its turn comes a job is as it was, and refers to what it did. -/
theorem Turn.found (h : Turn multipliers cfg w j.id t) (hw : w.jobs.Ascending) (hj : j ∈ w.jobs)
    (hemploys : w.Employs j recipe building) : t.jobs.get? j.id = some j ∧ t.Employs j recipe building := by
  obtain ⟨hsame, hrecipes, hbuildings⟩ := h.others hw
  refine ⟨?_, ?_, ?_⟩
  · rw [hsame]
    exact Roster.get?_of_mem hw hj
  · rw [hrecipes]
    exact hemploys.recipe
  · rw [hbuildings]
    exact hemploys.building

/-- Production runs out of stock exactly if some job overdraws. -/
theorem runProduction_outOfStock (hw : w.check = .ok ()) :
    (∃ e w', (runProduction multipliers cfg).run w = .error e w' ∧ e.isOutOfStock) ↔
      ∃ j ∈ w.jobs, ∃ recipe building t, w.Employs j recipe building ∧ Turn multipliers cfg w j.id t ∧
        Overdraws multipliers cfg j recipe building t := by
  have hascending := World.jobs_ascending_of_check hw
  constructor
  · rintro ⟨e, w', h, he⟩
    obtain ⟨i, t, hturn, hfail⟩ := runProduction_error.1 h
    obtain ⟨j, hj, rfl, -⟩ := hturn.mem
    obtain ⟨recipe, building, hemploys⟩ := World.exists_employs hw hj
    obtain ⟨hget, hrecipe, hbuilding⟩ := hturn.found hascending hj hemploys
    have hover := (runJob_outOfStock hget hrecipe hbuilding).1 ⟨e, w', hfail, he⟩
    exact ⟨j, hj, recipe, building, t, hemploys, hturn, hover⟩
  · rintro ⟨j, hj, recipe, building, t, hemploys, hturn, hover⟩
    obtain ⟨hget, hrecipe, hbuilding⟩ := hturn.found hascending hj hemploys
    obtain ⟨e, w', hfail, he⟩ := (runJob_outOfStock hget hrecipe hbuilding).2 hover
    exact ⟨e, w', runProduction_error.2 ⟨j.id, t, hturn, hfail⟩, he⟩

end

/-- In a world that the check accepts each unfinished job has its turn. If it needs work it then draws, for
every item, what its recipe asks in total, or it is blocked with nothing else changed, because something is
short or its building does not work for it. Production runs out of stock exactly if some job overdraws, which
no job does where no recipe lists an item on two lines. -/
theorem shortages_block {w : World} (hw : w.check = .ok ()) (multipliers : MultiplierTable)
    (cfg : ProductionConfig) :
    (∀ j ∈ w.jobs, j.state.isActive → ∃ recipe building, w.Employs j recipe building ∧
      ∀ t, Turn multipliers cfg w j.id t → ∀ r t', (runJob multipliers cfg j.id).run t = .ok r t' →
        j.progress < recipe.workRequired → Draws j recipe t t' ∨ Blocks j t t' ∧
          (¬ t.Supplies j recipe ∨ building.status ≠ .active ∨ building.company ≠ j.company)) ∧
    (∀ summary w', (runProduction multipliers cfg).run w = .ok summary w' → ∀ j ∈ w.jobs, j.state.isActive →
      ∃ t r t', Turn multipliers cfg w j.id t ∧ (runJob multipliers cfg j.id).run t = .ok r t' ∧
        w'.jobs.get? j.id = t'.jobs.get? j.id) ∧
    ((∃ e w', (runProduction multipliers cfg).run w = .error e w' ∧ e.isOutOfStock) ↔
      ∃ j ∈ w.jobs, ∃ recipe building t, w.Employs j recipe building ∧ Turn multipliers cfg w j.id t ∧
        Overdraws multipliers cfg j recipe building t) ∧
    ((∀ recipe ∈ w.recipes, (recipe.inputs.map (·.item)).Nodup) →
      ∀ e w', (runProduction multipliers cfg).run w = .error e w' → ¬ e.isOutOfStock) := by
  have hascending := World.jobs_ascending_of_check hw
  refine ⟨fun j hj _ => ?_, fun summary w' h j hj hactive => ?_, runProduction_outOfStock hw,
    fun hlines e w' h he => ?_⟩
  · obtain ⟨recipe, building, hemploys⟩ := World.exists_employs hw hj
    refine ⟨recipe, building, hemploys, fun t hturn r t' hrun hneeds => ?_⟩
    obtain ⟨hget, hrecipe, hbuilding⟩ := hturn.found hascending hj hemploys
    exact runJob_needs hget hrecipe hbuilding hneeds hrun
  · exact runProduction_turns hascending h (List.mem_map_of_mem (List.mem_filter.2 ⟨hj, hactive⟩))
  · obtain ⟨j, -, recipe, building, t, hemploys, -, hover⟩ := (runProduction_outOfStock hw).1 ⟨e, w', h, he⟩
    have hnodup := hlines recipe (Roster.mem_of_get? hemploys.recipe)
    exact hover.short (hover.offers.supplies hnodup)

/-- A batch in the smithy. -/
def smelt (id : JobId) (quantity : Quantity) : Job := ⟨id, ⟨4⟩, ⟨6⟩, ⟨1⟩, ⟨5⟩, quantity, 0, .queued, 0⟩

/-- Two batches, of three and of one, and seven units of ore for them. -/
def smithy (inputs : List RecipeInput) : World :=
  { World.empty with
    regions := [⟨⟨1⟩, "north"⟩]
    items := [⟨⟨2⟩, "ore"⟩, ⟨⟨3⟩, "metal"⟩]
    companies := [⟨⟨4⟩, "smith", 100, 0, false⟩]
    recipes := [⟨⟨5⟩, "smelting", "smelter", inputs, ⟨3⟩, 1, 20⟩]
    buildings := [⟨⟨6⟩, ⟨4⟩, ⟨1⟩, "smelter", .active, 2⟩]
    jobs := [smelt ⟨7⟩ 3, smelt ⟨8⟩ 1]
    inventory := .ofBalances [⟨⟨⟨4⟩, ⟨1⟩, ⟨2⟩⟩, 7⟩]
    nextId := 8 }

/-- At two units of ore for each, the first batch draws six and the second one is blocked. -/
theorem shortages_block_smithy : (smithy [⟨⟨2⟩, 2⟩]).check = .ok () ∧
    ∃ summary w', (runProduction [] {}).run (smithy [⟨⟨2⟩, 2⟩]) = .ok summary w' ∧
      (∃ recipe t t', Turn [] {} (smithy [⟨⟨2⟩, 2⟩]) ⟨7⟩ t ∧ Draws (smelt ⟨7⟩ 3) recipe t t') ∧
      ∃ recipe t t', Turn [] {} (smithy [⟨⟨2⟩, 2⟩]) ⟨8⟩ t ∧ Blocks (smelt ⟨8⟩ 1) t t' ∧
        ¬ t.Supplies (smelt ⟨8⟩ 1) recipe := by
  have hcheck : (smithy [⟨⟨2⟩, 2⟩]).check = .ok () := by decide +kernel
  have hstates : ((runProduction [] {}).outcome (smithy [⟨⟨2⟩, 2⟩])).map (fun r =>
      ((r.2.jobs.get? ⟨7⟩).map (·.state), (r.2.jobs.get? ⟨8⟩).map (·.state))) =
      .ok (some .running, some .blocked) := by decide +kernel
  obtain ⟨⟨summary, w'⟩, hrun, hstates⟩ := Check.map_ok.1 hstates
  have hrun := Action.outcome_ok.1 hrun
  obtain ⟨hfirst, hsecond⟩ := Prod.mk.inj hstates
  have hrecipe : (smithy [⟨⟨2⟩, 2⟩]).recipes.get? ⟨5⟩ =
      some ⟨⟨5⟩, "smelting", "smelter", [⟨⟨2⟩, 2⟩], ⟨3⟩, 1, 20⟩ := by decide +kernel
  have hbuilding : (smithy [⟨⟨2⟩, 2⟩]).buildings.get? ⟨6⟩ =
      some ⟨⟨6⟩, ⟨4⟩, ⟨1⟩, "smelter", .active, 2⟩ := by decide +kernel
  obtain ⟨hjobs, hturns, -⟩ := shortages_block hcheck [] {}
  refine ⟨hcheck, summary, w', hrun, ?_, ?_⟩
  · have hmem : smelt ⟨7⟩ 3 ∈ (smithy [⟨⟨2⟩, 2⟩]).jobs := by decide +kernel
    obtain ⟨recipe, building, hemploys, hworked⟩ := hjobs _ hmem rfl
    obtain ⟨t, r, t', hturn, hjob, hleft⟩ := hturns summary w' hrun _ hmem rfl
    obtain rfl := Option.some_inj.1 (hrecipe.symm.trans hemploys.recipe)
    refine ⟨_, t, t', hturn, (hworked t hturn r t' hjob (by decide)).resolve_right fun hblocked => ?_⟩
    obtain ⟨k, hk, hstate⟩ := Option.map_eq_some_iff.1 hfirst.symm
    rw [hblocked.1.state (hleft.symm.trans hk)] at hstate
    cases hstate
  · have hmem : smelt ⟨8⟩ 1 ∈ (smithy [⟨⟨2⟩, 2⟩]).jobs := by decide +kernel
    obtain ⟨recipe, building, hemploys, hworked⟩ := hjobs _ hmem rfl
    obtain ⟨t, r, t', hturn, hjob, hleft⟩ := hturns summary w' hrun _ hmem rfl
    obtain rfl := Option.some_inj.1 (hrecipe.symm.trans hemploys.recipe)
    obtain rfl := Option.some_inj.1 (hbuilding.symm.trans hemploys.building)
    rcases hworked t hturn r t' hjob (by decide) with hdraws | ⟨hblocks, hshort⟩
    · obtain ⟨k, hk, hstate⟩ := Option.map_eq_some_iff.1 hsecond.symm
      obtain ⟨k', hk', hgoing⟩ := hdraws.state
      obtain rfl := Option.some_inj.1 ((hleft.symm.trans hk).symm.trans hk')
      rw [hstate] at hgoing
      exact absurd hgoing (by decide)
    · exact ⟨_, t, t', hturn, hblocks, hshort.resolve_right (by decide)⟩

/-- The same ore on two lines of the recipe: the first batch draws it, and for the second one production runs
out of stock, and the whole tick with it. -/
theorem shortage_aborts : (smithy [⟨⟨2⟩, 1⟩, ⟨⟨2⟩, 1⟩]).check = .ok () ∧
    (∃ w', (runProduction [] {}).run (smithy [⟨⟨2⟩, 1⟩, ⟨⟨2⟩, 1⟩]) =
      .error (.insufficientInventory ⟨4⟩ ⟨1⟩ ⟨2⟩ 1 0) w') ∧
    ∃ w', (step {}).run (smithy [⟨⟨2⟩, 1⟩, ⟨⟨2⟩, 1⟩]) =
      .error (.insufficientInventory ⟨4⟩ ⟨1⟩ ⟨2⟩ 1 0) w' := by
  have hproduction : ((runProduction [] {}).outcome (smithy [⟨⟨2⟩, 1⟩, ⟨⟨2⟩, 1⟩])).map (·.1.blocked) =
      .error (.insufficientInventory ⟨4⟩ ⟨1⟩ ⟨2⟩ 1 0) := by decide +kernel
  have htick : ((step {}).outcome (smithy [⟨⟨2⟩, 1⟩, ⟨⟨2⟩, 1⟩])).map (·.1.1.tick) =
      .error (.insufficientInventory ⟨4⟩ ⟨1⟩ ⟨2⟩ 1 0) := by decide +kernel
  exact ⟨by decide +kernel, Action.outcome_error.1 (Check.map_error.1 hproduction),
    Action.outcome_error.1 (Check.map_error.1 htick)⟩

end Mercantile
