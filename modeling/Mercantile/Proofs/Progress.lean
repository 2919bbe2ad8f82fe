import Mercantile.Proofs.Shortages

/-!
The life of a job. Production gives each unfinished job one turn (`Evaluation`), and a history collects the
turns of many productions with commands and the other phases of ticks in between (`History`). A turn blocks
the job and changes nothing else, or it draws the inputs of the job and adds the step of the tick to its
progress (`Evaluation.Goes`). So the progress of a job is the sum of the steps of the turns that did not block
it, up to the work that its recipe requires, and the turn that reaches this work is its last (`job_life`).
-/

namespace Mercantile

open Roster (UpTo)

variable {w w' t t' u v : World} {j : Job} {recipe : Recipe} {multipliers : MultiplierTable}
  {cfg : ProductionConfig}

/-- The state in which a turn leaves a job. -/
def JobOutcome.state : JobOutcome → JobState
  | .blocked => .blocked
  | .advanced => .running
  | .completed => .completed

theorem toNat_advanceTo (progress step bound : UInt32) :
    (advanceTo progress step bound).toNat = min (progress.toNat + step.toNat) bound.toNat :=
  UInt32.toNat_ofNat_of_lt' (Nat.lt_of_le_of_lt (Nat.min_le_right _ _) bound.toNat_lt)

theorem finishJob_outcome {progress : UInt32} {o : JobOutcome}
    (h : (finishJob j recipe progress).run w = .ok o w') :
    o = (if recipe.workRequired.toNat ≤ progress.toNat then .completed else .advanced) ∧
      w' = { w with
        inventory := w'.inventory
        jobs := w.jobs.modify j.id fun k => { k with state := o.state, progress } } := by
  rw [finishJob] at h
  split at h
  · next hdone =>
    simp only [Action.bind_ok, Action.pure_ok, World.addStock_ok, Action.lift_ok, setJob, Action.modify_ok] at h
    obtain ⟨output, _, ⟨-, rfl⟩, _, _, ⟨inv, -, rfl⟩, _, _, rfl, rfl, rfl⟩ := h
    exact ⟨(if_pos (UInt32.le_iff_toNat_le.1 hdone)).symm, rfl⟩
  · next hgoing =>
    simp only [Action.bind_ok, Action.pure_ok, setJob, Action.modify_ok] at h
    obtain ⟨_, _, rfl, rfl, rfl⟩ := h
    exact ⟨(if_neg (mt UInt32.le_iff_toNat_le.2 hgoing)).symm, rfl⟩

theorem workOn_outcome {n : UInt32} {o : JobOutcome} (hj : t.jobs.get? j.id = some j)
    (hr : t.recipes.get? j.recipe = some recipe) (h : (workOn j recipe n).run t = .ok o t') :
    o = .blocked ∧ Blocks j t t' ∨ Draws j recipe t t' ∧
      o = (if recipe.workRequired.toNat ≤ j.progress.toNat + n.toNat then .completed else .advanced) ∧
      t' = { t with
        inventory := t'.inventory
        jobs := t.jobs.modify j.id fun k =>
          { k with state := o.state, progress := advanceTo j.progress n recipe.workRequired } } := by
  have hkind := workOn_ok hj hr h
  obtain ⟨lines, _, hlift, -⟩ := Action.bind_ok.1 h
  have hlines := (Action.lift_ok.1 hlift).1
  rw [workOn_run hlines] at h
  by_cases hoffers : lines.all fun i => t.inventory.has (j.stockKey i.1) i.2
  · rw [if_pos hoffers] at h
    obtain ⟨_, t₁, hdraw, hfinish⟩ := Action.bind_ok.1 h
    obtain ⟨houtcome, hframe⟩ := finishJob_outcome hfinish
    have hdrawn : t₁ = { t with inventory := t₁.inventory } := forM_removeStock_frame hdraw
    have hdraws := hkind.resolve_right fun hblocked => hblocked.2 fun item =>
      Nat.le_of_add_left_le (drawLines_stock (scaledInputs_ok hlines) hdraw item).le
    refine Or.inr ⟨hdraws, ?_, ?_⟩
    · rw [houtcome, toNat_advanceTo]
      simp only [Nat.le_min, Nat.le_refl, and_true]
    · rw [hframe, hdrawn]
  · rw [if_neg hoffers] at h
    obtain ⟨hblocked, hafter⟩ := EStateM.Result.ok.inj h
    exact Or.inl ⟨hblocked.symm, hafter.symm.trans (blocked_eq hj)⟩

/-- One turn of a job: what the tick is worth to it, what became of it, and the worlds before and after. -/
structure Evaluation where
  job : JobId
  step : UInt32
  outcome : JobOutcome
  before : World
  after : World

namespace Evaluation

/-- The turn takes place at these multipliers. -/
structure Occurs (multipliers : MultiplierTable) (cfg : ProductionConfig) (e : Evaluation) : Prop where
  step : ∃ k, e.before.jobs.get? e.job = some k ∧
    progressStep cfg.baseProgressPerTick (multipliers.of k.company).operations = .ok e.step
  run : (runJob multipliers cfg e.job).run e.before = .ok (e.job, e.outcome) e.after

/-- How a turn goes for a job with `done` work behind it. It is blocked and nothing else changes, or it draws
its inputs, gains the step, and is completed if that is all the work there is. -/
inductive Goes (j : Job) (recipe : Recipe) (done : Nat) (e : Evaluation) : Prop
  | blocked (outcome : e.outcome = .blocked) (nothing : Blocks j e.before e.after)
  | worked (progress : UInt32)
      (outcome : e.outcome =
        if recipe.workRequired.toNat ≤ done + e.step.toNat then .completed else .advanced)
      (draws : Draws j recipe e.before e.after)
      (gained : progress.toNat = min recipe.workRequired.toNat (done + e.step.toNat))
      (frame : e.after = { e.before with
        inventory := e.after.inventory
        jobs := e.before.jobs.modify j.id fun k => { k with state := e.outcome.state, progress } })

variable {e : Evaluation} {es : List Evaluation}

/-- A turn of a job that needs work goes in one of the two ways. -/
theorem Occurs.goes (h : e.Occurs multipliers cfg) (hid : j.id = e.job)
    (hj : e.before.jobs.get? j.id = some j) (hr : e.before.recipes.get? j.recipe = some recipe)
    (hneeds : j.progress < recipe.workRequired) : e.Goes j recipe j.progress.toNat := by
  obtain ⟨⟨k, hk, hstep⟩, hrun⟩ := h
  rw [← hid] at hk hrun
  obtain rfl := Option.some_inj.1 (hj.symm.trans hk)
  rw [runJob_run hj, Action.run_bind (Action.lift_ok.2 ⟨hstep, rfl⟩)] at hrun
  obtain ⟨o, hadvance, ho⟩ := Action.map_ok.1 hrun
  obtain rfl : o = e.outcome := congrArg Prod.snd ho
  obtain ⟨k, _, building, hk, -, hb, -⟩ := advanceJob_ok hadvance
  obtain rfl := Option.some_inj.1 (hj.symm.trans hk)
  rw [advanceJob_run hj hr hb] at hadvance
  by_cases hidle : building.status ≠ .active ∨ building.company ≠ j.company
  · rw [if_pos hidle] at hadvance
    obtain ⟨hblocked, hafter⟩ := EStateM.Result.ok.inj hadvance
    exact .blocked hblocked.symm (hafter.symm.trans (blocked_eq hj))
  · rw [if_neg hidle, if_pos hneeds] at hadvance
    rcases workOn_outcome hj hr hadvance with ⟨hblocked, hnothing⟩ | ⟨hdraws, houtcome, hframe⟩
    · exact .blocked hblocked hnothing
    · exact .worked _ houtcome hdraws ((toNat_advanceTo _ _ _).trans (Nat.min_comm _ _)) hframe

theorem Goes.of_terms {done : Nat} {state : JobState} {progress : UInt32}
    (h : e.Goes { j with state, progress } recipe done) : e.Goes j recipe done := by
  cases h with
  | blocked outcome nothing => exact .blocked outcome nothing
  | worked progress outcome draws gained frame =>
      exact .worked progress outcome ⟨draws.supplies, draws.stock, draws.elsewhere, draws.state⟩ gained frame

/-- The work that turns have added to a job: the steps of those that did not block it. -/
def gained (es : List Evaluation) : Nat :=
  ((es.filter fun e => e.outcome ≠ .blocked).map fun e => e.step.toNat).sum

theorem gained_append_singleton : gained (es ++ [e]) =
    gained es + if e.outcome = .blocked then 0 else e.step.toNat := by
  rw [gained, List.filter_append, List.map_append, List.sum_append, gained, List.filter_singleton]
  by_cases hblocked : e.outcome = .blocked <;> simp [hblocked]

end Evaluation

/-- The turns of some jobs, one after the other. -/
inductive Evaluations (multipliers : MultiplierTable) (cfg : ProductionConfig) :
    List JobId → World → List Evaluation → World → Prop
  | nil (w : World) : Evaluations multipliers cfg [] w [] w
  | cons {e : Evaluation} {is : List JobId} {es : List Evaluation} {u : World}
      (first : e.Occurs multipliers cfg) (rest : Evaluations multipliers cfg is e.after es u) :
      Evaluations multipliers cfg (e.job :: is) e.before (e :: es) u

namespace Evaluations

variable {is : List JobId} {es : List Evaluation}

theorem jobs (h : Evaluations multipliers cfg is w es u) : es.map (·.job) = is := by
  induction h with
  | nil w => rfl
  | cons first rest ih => rw [List.map_cons, ih]

theorem count (h : Evaluations multipliers cfg is w es u) (i : JobId) :
    (es.filter (·.job = i)).length = is.count i := by
  rw [← h.jobs, List.count, List.countP_map, List.countP_eq_length_filter]
  rfl

/-- What the turns answer is what became of the jobs. -/
theorem of_mapM {rs : List (JobId × JobOutcome)}
    (h : (is.mapM (runJob multipliers cfg)).run w = .ok rs u) :
    ∃ es, Evaluations multipliers cfg is w es u ∧ rs = es.map fun e => (e.job, e.outcome) := by
  induction is generalizing w rs with
  | nil =>
      obtain ⟨rfl, rfl⟩ := Action.mapM_nil_ok.1 h
      exact ⟨[], .nil _, rfl⟩
  | cons i is ih =>
      obtain ⟨⟨i', o⟩, t, rs, hfirst, hrest, rfl⟩ := Action.mapM_cons_ok.1 h
      obtain ⟨es, hes, rfl⟩ := ih hrest
      obtain ⟨hi, n, hadvance⟩ := runJob_ok hfirst
      obtain rfl : i' = i := hi
      obtain ⟨j, -, -, hj, -⟩ := advanceJob_ok hadvance
      obtain rfl : j.id = i' := Roster.key_of_get? hj
      have hrun := hfirst
      rw [runJob_run hj] at hrun
      obtain ⟨n, _, hstep, -⟩ := Action.bind_ok.1 hrun
      let e : Evaluation := ⟨j.id, n, o, w, t⟩
      have hoccurs : e.Occurs multipliers cfg := ⟨⟨j, hj, (Action.lift_ok.1 hstep).1⟩, hfirst⟩
      exact ⟨e :: es, .cons hoccurs hes, rfl⟩

end Evaluations

/-- The jobs that a production names by what became of them. -/
def summarize (es : List Evaluation) : ProductionSummary :=
  let jobs (o : JobOutcome) := (es.filter (·.outcome = o)).map (·.job)
  ⟨jobs .advanced, jobs .blocked, jobs .completed⟩

/-- A production is one turn for each unfinished job. -/
theorem exists_evaluations {summary : ProductionSummary}
    (h : (runProduction multipliers cfg).run w = .ok summary u) :
    ∃ es, Evaluations multipliers cfg w.activeJobs w es u ∧ summary = summarize es := by
  simp only [runProduction, Action.bind_ok, Action.get_ok, Action.pure_ok] at h
  obtain ⟨_, _, ⟨rfl, rfl⟩, rs, _, hrs, rfl, rfl⟩ := h
  obtain ⟨es, hes, rfl⟩ := Evaluations.of_mapM hrs
  refine ⟨es, hes, ?_⟩
  simp only [summarize, List.filter_map, List.map_map]
  rfl

/-- Productions, with their turns, and what happens in between: commands, of which none cancels the job `i`, and
whatever leaves the jobs and the recipes alone, as the other phases of a tick do. -/
inductive History (i : JobId) (w : World) : List Evaluation → World → Prop
  | start : History i w [] w
  | command {es : List Evaluation} {v u : World} (cfg : EngineConfig) (c : Command) (before : History i w es v)
      (run : (c.act cfg).run v = .ok () u) (spared : c ≠ .cancelJob i) : History i w es u
  | production {es new : List Evaluation} {v u : World} {summary : ProductionSummary}
      (multipliers : MultiplierTable) (cfg : ProductionConfig) (before : History i w es v)
      (run : (runProduction multipliers cfg).run v = .ok summary u)
      (turns : Evaluations multipliers cfg v.activeJobs v new u) : History i w (es ++ new) u
  | aside {es : List Evaluation} {v u : World} (before : History i w es v) (jobs : u.jobs = v.jobs)
      (recipes : u.recipes = v.recipes) (nextId : v.nextId.toNat ≤ u.nextId.toNat) : History i w es u

namespace History

variable {i : JobId} {es : List Evaluation}

/-- The jobs go on from where they were, with the recipes that they had. -/
theorem continues (h : History i w es v) (hw : UpTo w.nextId w.jobs) : v.recipes = w.recipes ∧
    w.nextId.toNat ≤ v.nextId.toNat ∧ Roster.Continues w.nextId v.nextId w.jobs v.jobs := by
  induction h with
  | start => exact ⟨rfl, Nat.le_refl _, .refl _⟩
  | command cfg c before run spared ih =>
      obtain ⟨hrecipes, hnext, hjobs⟩ := ih
      have hlater := Command.continues run
      refine ⟨?_, Nat.le_trans hnext hlater.nextId, ?_⟩
      · rw [Command.act_frame run, hrecipes]
      · exact hjobs.trans (hlater.jobs (hjobs.upTo hnext hw)) hnext hlater.nextId
  | production multipliers cfg before run turns ih =>
      obtain ⟨hrecipes, hnext, hjobs⟩ := ih
      have hproceeds := runProduction_proceeds (hjobs.upTo hnext hw).ascending run
      rw [runProduction_frame run]
      exact ⟨hrecipes, hnext, hjobs.trans (.of_forall₂ hproceeds) hnext (Nat.le_refl _)⟩
  | aside before jobs recipes nextId ih =>
      obtain ⟨hrecipes, hnext, hjobs⟩ := ih
      refine ⟨recipes.trans hrecipes, Nat.le_trans hnext nextId, ?_⟩
      rw [jobs]
      exact hjobs.trans (.refl _) hnext nextId

/-- A tick is a production with other phases before and after it. -/
theorem tick {cfg : EngineConfig} {r : TickReport × List Trade} (hv : History i w es v)
    (h : (step cfg).run v = .ok r u) : ∃ new, History i w (es ++ new) u := by
  obtain ⟨tick, before, after, drift, o, s', -, -, hphases, hclock, -, -, -, -⟩ := step_ok h
  obtain ⟨version, -, rfl⟩ := moveClock_ok.1 hclock
  obtain ⟨s₁, w₂, w₃, s₄, hbots, hclear, hproduction, hdelivered, hdeliveries⟩ := runPhases_ok hphases
  have hmoved := supplyBots_moved hbots
  have hcleared := clearMarkets_frame hclear
  have harrived := advanceShipments_frame hdelivered
  have hsettled := settleContracts_frame hdeliveries
  obtain ⟨w₂', hfills, hfiled⟩ := clearMarkets_ok.1 hclear
  obtain ⟨hnext, -, -⟩ := numbered_of_fills hfills
  obtain ⟨new, hnew, -⟩ := exists_evaluations hproduction
  have hopened : History i w es (w₂.retainRecentTrades tick cfg.health.tradesWindowTicks) := by
    refine hv.aside ?_ ?_ ?_
    · rw [World.retainRecentTrades, hcleared, hmoved.frame]
    · rw [World.retainRecentTrades, hcleared, hmoved.frame]
    · rw [World.retainRecentTrades, hfiled]
      rw [hmoved.frame] at hnext
      exact hnext
  refine ⟨new, (hopened.production _ _ hproduction hnew).aside ?_ ?_ ?_⟩
  · rw [hsettled, harrived]
  · rw [hsettled, harrived]
  · rw [hsettled, harrived]

end History

/-- A command that does not cancel a job leaves it as it is. -/
theorem Command.job_kept {cfg : EngineConfig} {c : Command} {i : JobId} (hw : UpTo w.nextId w.jobs)
    (h : (c.act cfg).run w = .ok () w') (hspared : c ≠ .cancelJob i) (hj : w.jobs.get? i = some j) :
    w'.jobs.get? i = some j := by
  have hlater := (Command.continues h).jobs hw
  rcases (Command.kept_unless h).1 with hkept | ⟨r, rfl⟩ | ⟨id, rfl⟩
  · rw [hkept]
    exact hj
  · obtain ⟨id, h, -⟩ := Action.map_ok.1 h
    obtain ⟨-, -, building, _, inputs, -, -, -, -, -, -, -, hid, rfl⟩ := startJob_ok h
    have hw' := hlater.upTo (Nat.le_of_lt (Nat.lt_of_succ_le hid.ge)) hw
    obtain rfl : j.id = i := Roster.key_of_get? hj
    exact Roster.get?_of_mem hw'.ascending (List.mem_append_left _ (Roster.mem_of_get? hj))
  · obtain ⟨k, -, -, rfl⟩ := cancelJob_ok h
    have hne : i ≠ id := fun he => hspared (congrArg Command.cancelJob he.symm)
    have hsame : (w.jobs.modify id fun j => { j with state := .cancelled }).get? i = w.jobs.get? i :=
      Roster.get?_modify_of_ne (fun _ => rfl) hne
    exact hsame.trans hj

open Evaluation (gained)

/-- The job with `done` work behind it: it has that work, up to what its recipe requires, and it is completed if
that is all. -/
def Stands (j : Job) (recipe : Recipe) (done : Nat) (v : World) : Prop :=
  ∃ state progress, v.jobs.get? j.id = some { j with state, progress } ∧
    progress.toNat = min recipe.workRequired.toNat done ∧
    (done < recipe.workRequired.toNat ∧ state.isActive ∨
      recipe.workRequired.toNat ≤ done ∧ state = .completed)

theorem Stands.going {done : Nat} {state : JobState} (h : Stands j recipe done v)
    (hstate : (v.jobs.get? j.id).map (·.state) = some state) (hactive : state.isActive) :
    done < recipe.workRequired.toNat := by
  obtain ⟨state', progress, hfound, -, hphase⟩ := h
  rw [hfound] at hstate
  obtain rfl : state' = state := Option.some_inj.1 hstate
  rcases hphase with ⟨hneeds, -⟩ | ⟨-, rfl⟩
  · exact hneeds
  · cases hactive

theorem Stands.completed {done : Nat} (h : Stands j recipe done v)
    (hstate : (v.jobs.get? j.id).map (·.state) = some .completed) :
    v.jobs.get? j.id = some { j with state := .completed, progress := recipe.workRequired } := by
  obtain ⟨state, progress, hfound, hprogress, hphase⟩ := h
  rw [hfound] at hstate
  obtain rfl : state = .completed := Option.some_inj.1 hstate
  rcases hphase with ⟨-, hactive⟩ | ⟨hdone, -⟩
  · cases hactive
  · rw [Nat.min_eq_left hdone, UInt32.toNat_inj] at hprogress
    rw [hfound, hprogress]

namespace Evaluation

variable {e : Evaluation} {done : Nat}

theorem Occurs.goes_on (he : e.Occurs multipliers cfg) (hj : Stands j recipe done e.before) (hid : j.id = e.job)
    (hr : e.before.recipes.get? j.recipe = some recipe) (hneeds : done < recipe.workRequired.toNat) :
    e.Goes j recipe done := by
  obtain ⟨state, progress, hfound, hprogress, -⟩ := hj
  rw [Nat.min_eq_right (Nat.le_of_lt hneeds)] at hprogress
  rw [← hprogress] at hneeds ⊢
  exact .of_terms (he.goes hid hfound hr (UInt32.lt_iff_toNat_lt.2 hneeds))

/-- A turn that did not block the job adds its step. -/
theorem Goes.stands (h : e.Goes j recipe done) (hj : Stands j recipe done e.before)
    (hneeds : done < recipe.workRequired.toNat) :
    Stands j recipe (done + if e.outcome = .blocked then 0 else e.step.toNat) e.after := by
  obtain ⟨state, progress, hfound, hprogress, -⟩ := hj
  have hset (f : Job → Job) (hf : ∀ k, key (f k) = key k) :
      (e.before.jobs.modify j.id f).get? j.id = some (f { j with state, progress }) :=
    Roster.get?_modify_found hfound hf
  cases h with
  | blocked outcome nothing =>
      rw [if_pos outcome, Nat.add_zero]
      refine ⟨.blocked, progress, ?_, hprogress, Or.inl ⟨hneeds, rfl⟩⟩
      rw [nothing]
      exact hset (fun k => { k with state := .blocked }) fun _ => rfl
  | worked progress' outcome draws gained frame =>
      have hworked : e.outcome ≠ .blocked := by
        rw [outcome]
        split <;> decide
      rw [if_neg hworked]
      refine ⟨e.outcome.state, progress', ?_, gained, ?_⟩
      · rw [frame]
        exact hset (fun k => { k with state := e.outcome.state, progress := progress' }) fun _ => rfl
      · rcases Nat.lt_or_ge (done + e.step.toNat) recipe.workRequired.toNat with hless | hmore
        · rw [if_neg (Nat.not_le.2 hless)] at outcome
          exact Or.inl ⟨hless, by rw [outcome]; rfl⟩
        · rw [if_pos hmore] at outcome
          exact Or.inr ⟨hmore, by rw [outcome]; rfl⟩

end Evaluation

/-- What the turns `es` of a job have made of it. Each of them found it with work to do and went on from the
work of those before it, and the job has the work of all of them. -/
structure Life (j : Job) (recipe : Recipe) (es : List Evaluation) (v : World) : Prop where
  jobs : UpTo v.nextId v.jobs
  makes : v.recipes.get? j.recipe = some recipe
  stands : Stands j recipe (gained es) v
  turns : ∀ before e after, es = before ++ e :: after →
    gained before < recipe.workRequired.toNat ∧ e.Goes j recipe (gained before)

namespace Life

variable {e : Evaluation} {es new : List Evaluation} {is : List JobId}

/-- The turn that completes a job is its last. -/
theorem last (h : Life j recipe es v) {before after : List Evaluation} (hes : es = before ++ e :: after)
    (hcompleted : e.outcome = .completed) : after = [] := by
  rcases after with _ | ⟨next, after⟩
  · rfl
  · obtain ⟨-, hgoes⟩ := h.turns before e (next :: after) hes
    obtain ⟨hneeds, -⟩ := h.turns (before ++ [e]) next after (by rw [hes, List.append_assoc]; rfl)
    rw [Evaluation.gained_append_singleton, hcompleted, if_neg (by decide)] at hneeds
    cases hgoes with
    | blocked outcome => cases hcompleted.symm.trans outcome
    | worked progress outcome =>
        rw [hcompleted, if_neg (Nat.not_le.2 hneeds)] at outcome
        cases outcome

theorem mem_activeJobs (h : Life j recipe es v) :
    j.id ∈ v.activeJobs ↔ gained es < recipe.workRequired.toNat := by
  obtain ⟨state, progress, hfound, -, hstate⟩ := h.stands
  rcases hstate with ⟨hneeds, hactive⟩ | ⟨hdone, hcompleted⟩
  · refine iff_of_true ?_ hneeds
    exact List.mem_map.2 ⟨_, List.mem_filter.2 ⟨Roster.mem_of_get? hfound, hactive⟩, rfl⟩
  · refine iff_of_false (fun hmem => ?_) (Nat.not_lt.2 hdone)
    have hopen := Roster.open_of_mem_filter h.jobs.ascending (fun _ => Job.not_ended.2) hmem hfound
    exact hopen (Job.ended_iff.2 (Or.inl hcompleted))

/-- What leaves the job and its recipe alone does not change its life. -/
theorem kept (h : Life j recipe es v) (hjobs : UpTo u.nextId u.jobs) (hrecipes : u.recipes = v.recipes)
    (hsame : u.jobs.get? j.id = v.jobs.get? j.id) : Life j recipe es u where
  jobs := hjobs
  makes := hrecipes ▸ h.makes
  stands := by
    rw [Stands, hsame]
    exact h.stands
  turns := h.turns

theorem other (h : Life j recipe es e.before) (he : e.Occurs multipliers cfg) (hne : j.id ≠ e.job) :
    Life j recipe es e.after := by
  have hframe := runJob_frame he.run
  obtain ⟨state, progress, hjobs⟩ := runJob_jobs he.run
  refine h.kept ?_ (by rw [hframe]) ?_
  · rw [hframe, hjobs]
    exact h.jobs.modify _ fun _ => rfl
  · rw [hjobs]
    exact Roster.get?_modify_of_ne (fun _ => rfl) hne

/-- A turn of the job itself. -/
theorem own (h : Life j recipe es e.before) (he : e.Occurs multipliers cfg) (hid : j.id = e.job)
    (hneeds : gained es < recipe.workRequired.toNat) : Life j recipe (es ++ [e]) e.after := by
  have hgoes := he.goes_on h.stands hid h.makes hneeds
  have hframe := runJob_frame he.run
  obtain ⟨_, _, hjobs⟩ := runJob_jobs he.run
  refine ⟨?_, ?_, ?_, fun before e' after hes => ?_⟩
  · rw [hframe, hjobs]
    exact h.jobs.modify _ fun _ => rfl
  · rw [hframe]
    exact h.makes
  · rw [Evaluation.gained_append_singleton]
    exact hgoes.stands h.stands hneeds
  · rcases List.eq_nil_or_concat after with rfl | ⟨after, last, rfl⟩
    · obtain ⟨rfl, heq⟩ := List.append_inj' hes rfl
      obtain rfl := List.singleton_inj.1 heq
      exact ⟨hneeds, hgoes⟩
    · rw [List.concat_eq_append, ← List.cons_append, ← List.append_assoc] at hes
      obtain ⟨hes, -⟩ := List.append_inj' hes rfl
      exact h.turns before e' after hes

/-- The turns of a list of jobs, of which the ones of this job are those that count. -/
theorem evaluations (hturns : Evaluations multipliers cfg is v new u) (hnodup : is.Nodup)
    (hopen : j.id ∈ is → gained es < recipe.workRequired.toNat) (h : Life j recipe es v) :
    Life j recipe (es ++ new.filter (·.job = j.id)) u := by
  induction hturns generalizing es with
  | nil w =>
      rw [List.filter_nil, List.append_nil]
      exact h
  | @cons e is new u first rest ih =>
      obtain ⟨hfresh, hnodup⟩ := List.nodup_cons.1 hnodup
      by_cases hid : e.job = j.id
      · have hmine := h.own first hid.symm (hopen (hid ▸ List.mem_cons_self))
        rw [List.filter_cons_of_pos (by simpa using hid), List.append_cons]
        exact ih hnodup (fun hlater => absurd (hid ▸ hlater) hfresh) hmine
      · rw [List.filter_cons_of_neg (by simpa using hid)]
        exact ih hnodup (fun hlater => hopen (List.mem_cons_of_mem _ hlater)) (h.other first (Ne.symm hid))

/-- A job lives through every history. -/
theorem history (hstart : Life j recipe [] w) (h : History j.id w es v) :
    Life j recipe (es.filter (·.job = j.id)) v := by
  induction h with
  | start => exact hstart
  | command cfg c before run spared ih =>
      have hlater := Command.continues run
      obtain ⟨state, progress, hfound, -⟩ := ih.stands
      refine ih.kept ((hlater.jobs ih.jobs).upTo hlater.nextId ih.jobs) (by rw [Command.act_frame run]) ?_
      rw [hfound]
      exact Command.job_kept ih.jobs run spared hfound
  | production multipliers cfg before run turns ih =>
      rw [List.filter_append]
      exact ih.evaluations turns (ih.jobs.ascending.nodup_filter _) ih.mem_activeJobs.1
  | aside before jobs recipes nextId ih =>
      refine ih.kept ?_ recipes (by rw [jobs])
      rw [jobs]
      exact ih.jobs.mono nextId

end Life

/-- The life of a job that was just started, through every run that does not cancel it. Each of its turns finds
it with work to do, and it is blocked with nothing else changed, or draws its inputs and gains the step of the
tick. Its progress is the sum of the steps of the turns that did not block it, up to the work that its recipe
requires. The turn that reaches this work completes the job, yields its output and is its last; while there is
work left it has a turn in every production. -/
theorem job_life {r : JobRequest} {id : JobId} {w w₁ : World} {recipe : Recipe} (hw : UpTo w.nextId w.jobs)
    (hstart : (startJob r).run w = .ok id w₁) (hr : w.recipes.get? r.recipe = some recipe)
    (hneeds : 0 < recipe.workRequired) :
    ∃ j region, j = r.job id region w.clock.currentTick ∧ w₁.jobs.get? id = some j ∧
      ∀ log v, History id w₁ log v →
        Life j recipe (log.filter (·.job = id)) v ∧
        (∀ before e after, log.filter (·.job = id) = before ++ e :: after → e.outcome = .completed → after = []) ∧
        (∀ multipliers cfg summary u, (runProduction multipliers cfg).run v = .ok summary u →
          ∃ new, History id w₁ (log ++ new) u ∧ summary = summarize new ∧
            (new.filter (·.job = id)).length =
              if gained (log.filter (·.job = id)) < recipe.workRequired.toNat then 1 else 0) ∧
        ∀ cfg answer u, (step cfg).run v = .ok answer u → ∃ new, History id w₁ (log ++ new) u := by
  obtain ⟨-, -, building, recipe', inputs, -, hr', -, -, -, -, -, hid, rfl⟩ := startJob_ok hstart
  obtain rfl := Option.some_inj.1 (hr.symm.trans hr')
  have hjobs := hw.append (a := r.job id building.region w.clock.currentTick) (m := id.val)
    (Nat.lt_of_succ_le hid.ge) (Nat.le_refl _)
  have hfound := Roster.get?_of_mem hjobs.ascending (List.mem_append_right _ (List.mem_singleton_self _))
  refine ⟨_, building.region, rfl, hfound, fun log v hlog => ?_⟩
  have hborn : Life (r.job id building.region w.clock.currentTick) recipe [] { w with
      nextId := id.val, jobs := w.jobs ++ [r.job id building.region w.clock.currentTick] } :=
    { jobs := hjobs
      makes := hr
      stands := ⟨.queued, 0, hfound, (Nat.min_zero _).symm, Or.inl ⟨UInt32.lt_iff_toNat_lt.1 hneeds, rfl⟩⟩
      turns := fun before e after hnone => absurd hnone (by simp) }
  have hlife := hborn.history hlog
  refine ⟨hlife, fun before e after => hlife.last, fun multipliers cfg summary u hrun => ?_, fun cfg a u => hlog.tick⟩
  obtain ⟨new, hnew, hsummary⟩ := exists_evaluations hrun
  refine ⟨new, hlog.production multipliers cfg hrun hnew, hsummary, ?_⟩
  rw [hnew.count id]
  have hmem := hlife.mem_activeJobs
  split
  · next hgoing =>
    exact List.count_eq_one_of_mem (hlife.jobs.ascending.nodup_filter _) (hmem.2 hgoing)
  · next hdone => exact List.count_eq_zero_of_not_mem fun hnamed => hdone (hmem.1 hnamed)

/-- The smithy without batches. Five of its twelve units of ore are offered for sale. -/
def forge : World :=
  { smithy [⟨⟨2⟩, 2⟩] with jobs := [], orders := [⟨⟨8⟩, ⟨4⟩, ⟨1⟩, ⟨2⟩, .sell, 30, 5, 5, .unfilled, 0⟩] }

/-- The state of the batch `i`. -/
def observe (i : JobId) : Action World (Option JobState) := do
  return ((← get).jobs.get? i).map (·.state)

theorem observe_ok {i : JobId} {state : Option JobState} (h : (observe i).run w = .ok state w') :
    w' = w ∧ (w.jobs.get? i).map (·.state) = state := by
  simp only [observe, Action.bind_ok, Action.get_ok, Action.pure_ok] at h
  obtain ⟨_, _, ⟨rfl, rfl⟩, rfl, rfl⟩ := h
  exact ⟨rfl, rfl⟩

/-- A batch of two draws four units of ore in a tick. It works, is blocked, and goes on when the offer of ore is
withdrawn: three turns, of which two count. -/
theorem job_life_forge : UpTo forge.nextId forge.jobs ∧
    ∃ w₁ log v j recipe, (startJob ⟨⟨4⟩, ⟨6⟩, ⟨5⟩, 2⟩).run forge = .ok ⟨9⟩ w₁ ∧ History ⟨9⟩ w₁ log v ∧
      (log.filter (·.job = ⟨9⟩)).length = 3 ∧ Life j recipe (log.filter (·.job = ⟨9⟩)) v ∧
      v.jobs.get? ⟨9⟩ = some { j with state := .completed, progress := 20 } := by
  have hjobs : UpTo forge.nextId forge.jobs := ⟨by decide +kernel, by decide +kernel⟩
  have hrecipe : forge.recipes.get? ⟨5⟩ = some ⟨⟨5⟩, "smelting", "smelter", [⟨⟨2⟩, 2⟩], ⟨3⟩, 1, 20⟩ := by
    decide +kernel
  have hrun : ((do
      let id ← startJob ⟨⟨4⟩, ⟨6⟩, ⟨5⟩, 2⟩
      let _ ← runProduction [] {}
      let first ← observe id
      let _ ← runProduction [] {}
      let second ← observe id
      (Command.cancelOrder ⟨8⟩).act {}
      let _ ← runProduction [] {}
      let third ← observe id
      return (id, first, second, third) : Action World _).outcome forge).map (·.1) =
      .ok (⟨9⟩, some .running, some .blocked, some .completed) := by decide +kernel
  obtain ⟨⟨_, v⟩, hrun, rfl⟩ := Check.map_ok.1 hrun
  have hrun := Action.outcome_ok.1 hrun
  obtain ⟨id, w₁, hstart, hrun⟩ := Action.bind_ok.1 hrun
  obtain ⟨_, v₁, hfirst, hrun⟩ := Action.bind_ok.1 hrun
  obtain ⟨_, _, hlook₁, hrun⟩ := Action.bind_ok.1 hrun
  obtain ⟨_, v₂, hsecond, hrun⟩ := Action.bind_ok.1 hrun
  obtain ⟨_, _, hlook₂, hrun⟩ := Action.bind_ok.1 hrun
  obtain ⟨_, v₃, hcancel, hrun⟩ := Action.bind_ok.1 hrun
  obtain ⟨_, v₄, hthird, hrun⟩ := Action.bind_ok.1 hrun
  obtain ⟨_, _, hlook₃, hrun⟩ := Action.bind_ok.1 hrun
  obtain ⟨hlooks, rfl⟩ := Action.pure_ok.1 hrun
  simp only [Prod.mk.injEq] at hlooks
  obtain ⟨rfl, rfl, rfl, rfl⟩ := hlooks
  obtain ⟨rfl, hlook₁⟩ := observe_ok hlook₁
  obtain ⟨rfl, hlook₂⟩ := observe_ok hlook₂
  obtain ⟨rfl, hlook₃⟩ := observe_ok hlook₃
  obtain ⟨j, region, rfl, -, hlife⟩ := job_life hjobs hstart hrecipe (by decide)
  obtain ⟨-, -, hproduce, -⟩ := hlife [] w₁ .start
  obtain ⟨log₁, hlog₁, -, hcount₁⟩ := hproduce _ _ _ _ hfirst
  obtain ⟨hlife₁, -, hproduce, -⟩ := hlife _ _ hlog₁
  obtain ⟨log₂, hlog₂, -, hcount₂⟩ := hproduce _ _ _ _ hsecond
  obtain ⟨hlife₂, -, -, -⟩ := hlife _ _ hlog₂
  have hlog₃ := hlog₂.command {} (.cancelOrder ⟨8⟩) hcancel nofun
  obtain ⟨-, -, hproduce, -⟩ := hlife _ _ hlog₃
  obtain ⟨log₄, hlog₄, -, hcount₄⟩ := hproduce _ _ _ _ hthird
  obtain ⟨hlife₄, -, -, -⟩ := hlife _ _ hlog₄
  have hgoing₁ := hlife₁.stands.going hlook₁ rfl
  have hgoing₂ := hlife₂.stands.going hlook₂ rfl
  rw [List.nil_append] at hlog₁ hlog₂ hlog₄ hlife₄ hgoing₁ hgoing₂ hcount₂ hcount₄
  rw [if_pos hgoing₁] at hcount₂
  rw [if_pos hgoing₂] at hcount₄
  refine ⟨hjobs, w₁, _, _, _, _, hstart, hlog₄, ?_, hlife₄, ?_⟩
  · rw [List.filter_append, List.filter_append, List.length_append, List.length_append, hcount₁, hcount₂, hcount₄]
    rfl
  · exact hlife₄.stands.completed hlook₃

end Mercantile
