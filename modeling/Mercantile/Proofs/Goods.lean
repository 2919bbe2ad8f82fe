import Mercantile.Proofs.Commands
import Mercantile.Proofs.Phases

/-!
Conservation of goods. An item is in stock, in the escrow of an open sell order or on its way in a
shipment. Commands, trades and arrivals move it between these places (`Command.goods_act`,
`clearMarkets_goods`, `deliveries_goods`); a tick changes the total by what jobs yield and draw and by what
is delivered to the market pool. Jobs and shipments are followed one by one through their lists, each of
them untouched until its turn.
-/

namespace Mercantile

/-- The units of an item that an order holds in escrow. -/
def Order.escrowOf (item : ItemId) (o : Order) : Nat :=
  if o.side = .sell ∧ o.item = item ∧ o.status.isOpen then o.remaining.toNat else 0

/-- The units of an item that are on their way in a shipment. -/
def Shipment.transitOf (item : ItemId) (sh : Shipment) : Nat :=
  if sh.item = item ∧ sh.status = .inTransit then sh.quantity.toNat else 0

namespace Order

variable {item : ItemId} {o : Order}

theorem escrowOf_sell (hside : o.side = .sell) (hopen : o.status.isOpen) :
    o.escrowOf item = if o.item = item then o.remaining.toNat else 0 := by
  simp only [escrowOf, hside, hopen, true_and, and_true]

theorem escrowOf_buy (hside : o.side = .buy) : o.escrowOf item = 0 := by
  simp [escrowOf, hside]

theorem escrowOf_closed (hclosed : o.status.isOpen = false) : o.escrowOf item = 0 := by
  simp [escrowOf, hclosed]

/-- Whatever remains of a sell order stays in escrow. -/
theorem escrowOf_leave (hside : o.side = .sell) (left : Quantity) :
    (o.leave left).escrowOf item = if o.item = item then left.toNat else 0 := by
  by_cases hzero : left = 0
  · have hfilled : (o.leave left).status = .filled := if_pos hzero
    rw [escrowOf_closed (by rw [hfilled]; rfl), hzero]
    exact (ite_self 0).symm
  · have hopen : (o.leave left).status.isOpen := by
      rcases o.leave_tradable left with hopen | hnone
      · exact hopen
      · exact absurd hnone hzero
    exact escrowOf_sell hside hopen

end Order

namespace Shipment

variable {item : ItemId} {sh : Shipment}

theorem transitOf_inTransit (h : sh.status = .inTransit) :
    sh.transitOf item = if sh.item = item then sh.quantity.toNat else 0 := by
  simp only [transitOf, h, and_true]

theorem transitOf_ended (h : sh.status ≠ .inTransit) : sh.transitOf item = 0 := by
  simp [transitOf, h]

end Shipment

namespace World

/-- The units of an item in stock, in escrow and on their way. -/
def goods (w : World) (item : ItemId) : Nat :=
  w.inventory.totalOf item + (w.orders.map (Order.escrowOf item)).sum
    + (w.shipments.map (Shipment.transitOf item)).sum

variable {w : World} {item : ItemId}

theorem goods_modifyOrder {w : World} {i : ItemId} {id : OrderId} {o : Order}
    (h : w.orders.get? id = some o) (f : Order → Order) :
    (w.modifyOrder id f).goods i + o.escrowOf i = w.goods i + (f o).escrowOf i := by
  have hsum := Roster.sum_modify h f (Order.escrowOf i)
  simp only [goods, modifyOrder]
  omega

theorem goods_modifyShipment {w : World} {i : ItemId} {id : ShipmentId} {sh : Shipment}
    (h : w.shipments.get? id = some sh) (f : Shipment → Shipment) :
    (w.modifyShipment id f).goods i + sh.transitOf i = w.goods i + (f sh).transitOf i := by
  have hsum := Roster.sum_modify h f (Shipment.transitOf i)
  simp only [goods, modifyShipment]
  omega

theorem goods_add {k : StockKey} {q : Quantity} {inv : Inventory} (h : w.inventory.add k q = .ok inv) :
    { w with inventory := inv }.goods item = w.goods item + if k.item = item then q.toNat else 0 := by
  have hsum := Inventory.totalOf_add h item
  simp only [goods]
  omega

theorem goods_remove {k : StockKey} {q : Quantity} {inv : Inventory}
    (h : w.inventory.remove k q = .ok inv) :
    { w with inventory := inv }.goods item + (if k.item = item then q.toNat else 0) = w.goods item := by
  have hsum := Inventory.totalOf_remove h item
  simp only [goods]
  omega

theorem goods_appendOrder (w : World) (o : Order) :
    { w with orders := w.orders ++ [o] }.goods item = w.goods item + o.escrowOf item := by
  simp only [goods, List.map_append, List.map_cons, List.map_nil, List.sum_append, List.sum_cons,
    List.sum_nil]
  omega

theorem goods_appendShipment (w : World) (sh : Shipment) :
    { w with shipments := w.shipments ++ [sh] }.goods item = w.goods item + sh.transitOf item := by
  simp only [goods, List.map_append, List.map_cons, List.map_nil, List.sum_append, List.sum_cons,
    List.sum_nil]
  omega

theorem MoneyMoved.goods {w' : World} (h : w.MoneyMoved w') : w'.goods item = w.goods item := by
  rw [h.frame]
  rfl

end World

/-- A command moves goods from one place to another only. -/
theorem Command.goods_act {cfg : EngineConfig} {c : Command} {w w' : World}
    (h : (c.act cfg).run w = .ok () w') (item : ItemId) : w'.goods item = w.goods item := by
  cases c with
  | placeOrder r =>
      obtain ⟨id, h, -⟩ := Action.map_ok.1 h
      obtain ⟨-, -, -, -, -, total, w₁, -, hback, -, rfl⟩ := placeOrder_ok h
      refine (World.goods_appendOrder w₁ (r.order id w₁.clock.currentTick)).trans ?_
      rcases hback with ⟨hbuy, hreserve⟩ | ⟨hsell, hremove⟩
      · rw [(Ledger.reserve_moved hreserve).goods, Order.escrowOf_buy hbuy, Nat.add_zero]
      · obtain ⟨inv, hinv, rfl⟩ := World.removeStock_ok.1 hremove
        rw [Order.escrowOf_sell hsell rfl]
        exact World.goods_remove hinv
  | cancelOrder id =>
      obtain ⟨o, w₁, ho, hopen, hback, rfl⟩ := cancelOrder_ok h
      have ho₁ : w₁.orders.get? id = some o := by
        rcases hback with ⟨-, amount, -, hrelease⟩ | ⟨-, hadd⟩
        · rw [(Ledger.release_moved hrelease).frame]
          exact ho
        · obtain ⟨inv, -, rfl⟩ := World.addStock_ok.1 hadd
          exact ho
      have hclosed := World.goods_modifyOrder (i := item) ho₁ fun o => { o with status := .cancelled }
      have hgone : ({ o with status := .cancelled } : Order).escrowOf item = 0 := Order.escrowOf_closed rfl
      rw [hgone, Nat.add_zero] at hclosed
      rcases hback with ⟨hbuy, amount, -, hrelease⟩ | ⟨hsell, hadd⟩
      · rw [Order.escrowOf_buy hbuy, (Ledger.release_moved hrelease).goods] at hclosed
        exact hclosed
      · obtain ⟨inv, hinv, rfl⟩ := World.addStock_ok.1 hadd
        rw [Order.escrowOf_sell hsell hopen, World.goods_add hinv] at hclosed
        exact Nat.add_right_cancel hclosed
  | createContract r =>
      obtain ⟨id, h, -⟩ := Action.map_ok.1 h
      obtain ⟨-, -, -, -, -, total, w₁, -, hback, -, rfl⟩ := createContract_ok h
      rcases hback with ⟨-, rfl⟩ | ⟨buyer, c, -, -, hreserve⟩
      · rfl
      · exact (Ledger.reserve_moved hreserve).goods
  | cancelContract id =>
      obtain ⟨c, w₁, -, -, hback, rfl⟩ := cancelContract_ok h
      rcases hback with ⟨-, rfl⟩ | ⟨buyer, amount, -, -, hrelease⟩
      · rfl
      · exact (Ledger.release_moved hrelease).goods
  | startJob r =>
      obtain ⟨id, h, -⟩ := Action.map_ok.1 h
      obtain ⟨-, -, building, recipe, inputs, -, -, -, -, -, -, -, -, rfl⟩ := startJob_ok h
      rfl
  | cancelJob id =>
      obtain ⟨j, -, -, rfl⟩ := cancelJob_ok h
      rfl
  | createShipment r =>
      obtain ⟨id, h, -⟩ := Action.map_ok.1 h
      obtain ⟨-, -, -, -, -, -, -, eta, inv, -, hinv, -, rfl⟩ := createShipment_ok h
      refine (World.goods_appendShipment { w with inventory := inv }
        (r.shipment id w.clock.currentTick eta)).trans ?_
      rw [Shipment.transitOf_inTransit rfl]
      exact World.goods_remove hinv
  | cancelShipment id =>
      obtain ⟨sh, inv, hsh, htransit, hinv, rfl⟩ := cancelShipment_ok h
      have hadded : { w with inventory := inv }.goods item = _ := World.goods_add hinv
      have hclosed := World.goods_modifyShipment (w := { w with inventory := inv }) (i := item) hsh
        fun sh => { sh with status := .cancelled }
      rw [Shipment.transitOf_inTransit htransit, Shipment.transitOf_ended (by simp), hadded] at hclosed
      exact Nat.add_right_cancel hclosed
  | setAllocation a =>
      obtain ⟨-, -, rfl⟩ := setAllocation_ok h
      rfl

variable {w w' : World} {s s' : Account} (item : ItemId)

/-- A match hands the buyer what it takes out of the seller's escrow. -/
theorem applyFill_goods {k : MarketKey} {tick : Tick} {f : Fill} {t : Trade} (hf : Answered w k f)
    (h : (applyFill k tick f).run w = .ok t w') : w'.goods item = w.goods item := by
  obtain ⟨r, w₁, inv, bid, ask, bidLeft, askLeft, hsettle, hinv, hparties, hne, hbid, -, hask, hleft, -,
    rfl⟩ := hf.applyFill_ok h
  have horders : w₁.orders = w.orders := by rw [(Ledger.settle_moved hsettle).frame]
  have hpaid : w₁.goods item = w.goods item := (Ledger.settle_moved hsettle).goods
  have hitem : k.item = ask.item := congrArg MarketKey.item hparties.askMarket.symm
  have hadded : { w₁ with inventory := inv }.goods item =
      w₁.goods item + if ask.item = item then f.quantity.toNat else 0 := by
    rw [← hitem]
    exact World.goods_add hinv
  rw [← horders] at hbid hask
  have hbought := World.goods_modifyOrder (w := { w₁ with inventory := inv }) (i := item) hbid
    (·.leave bidLeft)
  rw [Order.escrowOf_buy hparties.bidSide,
    Order.escrowOf_buy (show (bid.leave bidLeft).side = .buy from hparties.bidSide)] at hbought
  have hask' : ({ w₁ with inventory := inv }.modifyOrder f.buyOrder (·.leave bidLeft)).orders.get?
      f.sellOrder = some ask := by
    rw [← hask]
    exact Roster.get?_modify_of_ne (fun _ => rfl) hne
  have hsold := World.goods_modifyOrder (i := item) hask' (·.leave askLeft)
  rw [Order.escrowOf_sell hparties.askSide hparties.askOpen, Order.escrowOf_leave hparties.askSide]
    at hsold
  rw [← horders]
  show (({ w₁ with inventory := inv }.modifyOrder f.buyOrder (·.leave bidLeft)).modifyOrder f.sellOrder
    (·.leave askLeft)).goods item = w.goods item
  by_cases hi : ask.item = item
  · rw [if_pos hi] at hadded
    rw [if_pos hi, if_pos hi] at hsold
    omega
  · rw [if_neg hi] at hadded
    rw [if_neg hi, if_neg hi] at hsold
    omega

/-- Trading moves goods only. -/
theorem clearMarkets_goods {tick : Tick} {trades : List Trade} (hw : w.orders.Ascending)
    (h : (clearMarkets tick).run w = .ok trades w') : w'.goods item = w.goods item := by
  obtain ⟨w₁, hfills, rfl⟩ := clearMarkets_ok.1 h
  have hkept := Action.mapM_keeps
    (P := fun t => t.goods item = w.goods item ∧ ∀ m ∈ w.matchList, Answered t m.1 m.2)
    (fun m hm t r t' ht hrun => ⟨(applyFill_goods item (ht.2 m hm) hrun).trans ht.1,
      fun m' hm' => (ht.2 m' hm').kept hrun⟩)
    ⟨rfl, fun m hm => answered_of_mem_matchList hw hm⟩ hfills
  exact hkept.1

/-- The units of an item that inputs take for a batch. -/
def inputsOf (inputs : List RecipeInput) (batch : Quantity) (item : ItemId) : Nat :=
  (inputs.map fun i => if i.item = item then i.quantity.toNat * batch.toNat else 0).sum

/-- A line of a recipe for a batch of `q`. -/
structure RecipeInput.Scaled (q : Quantity) (i : RecipeInput) (line : ItemId × Quantity) : Prop where
  item : line.1 = i.item
  units : line.2.toNat = i.quantity.toNat * q.toNat

theorem scaledInputs_ok {rs : List RecipeInput} {q : Quantity} {lines : List (ItemId × Quantity)}
    (h : scaledInputs rs q = .ok lines) : List.Forall₂ (RecipeInput.Scaled q) rs lines := by
  induction rs generalizing lines with
  | nil =>
      rw [scaledInputs, List.mapM_nil, Check.pure_ok] at h
      rw [h]
      exact .nil
  | cons i rs ih =>
      simp only [scaledInputs, List.mapM_cons, Check.bind_ok, orFail_ok, Check.pure_ok,
        UInt64.mul?_eq_some] at h
      obtain ⟨_, ⟨units, hunits, rfl⟩, lines, hlines, rfl⟩ := h
      exact .cons ⟨rfl, hunits⟩ (ih hlines)

theorem inputsOf_cons {i : RecipeInput} {rs : List RecipeInput} {q : Quantity} {item : ItemId} :
    inputsOf (i :: rs) q item =
      (if i.item = item then i.quantity.toNat * q.toNat else 0) + inputsOf rs q item := by
  rw [inputsOf, List.map_cons, List.sum_cons, inputsOf]

/-- The units of an item that a job drew in a tick, going by the roster of jobs after it: a job that
needed work drew its inputs unless it was blocked. -/
def Job.drawnOf (recipes : Roster Recipe) (after : Roster Job) (item : ItemId) (j : Job) : Nat :=
  match recipes.get? j.recipe, after.get? j.id with
  | some recipe, some k =>
    if k.state ≠ .blocked ∧ j.progress < recipe.workRequired then inputsOf recipe.inputs j.quantity item
    else 0
  | _, _ => 0

/-- The units of an item that a job yielded in a tick: the output of the batch if it was completed. -/
def Job.madeOf (recipes : Roster Recipe) (after : Roster Job) (item : ItemId) (j : Job) : Nat :=
  match recipes.get? j.recipe, after.get? j.id with
  | some recipe, some k =>
    if k.state = .completed ∧ recipe.outputItem = item then
      recipe.outputQuantity.toNat * j.quantity.toNat
    else 0
  | _, _ => 0

theorem Job.drawnOf_congr {recipes : Roster Recipe} {after after' : Roster Job} {i : ItemId} {j : Job}
    (h : after'.get? j.id = after.get? j.id) : j.drawnOf recipes after' i = j.drawnOf recipes after i := by
  rw [drawnOf, drawnOf, h]

theorem Job.madeOf_congr {recipes : Roster Recipe} {after after' : Roster Job} {i : ItemId} {j : Job}
    (h : after'.get? j.id = after.get? j.id) : j.madeOf recipes after' i = j.madeOf recipes after i := by
  rw [madeOf, madeOf, h]

/-- Drawing the inputs of a batch takes exactly those units. -/
theorem draw_goods {j : Job} {recipeInputs : List RecipeInput} {inputs : List (ItemId × Quantity)}
    (hscaled : scaledInputs recipeInputs j.quantity = .ok inputs)
    (h : (inputs.forM fun i => World.removeStock (j.stockKey i.1) i.2).run w = .ok () w') :
    w'.goods item + inputsOf recipeInputs j.quantity item = w.goods item := by
  have hlines := scaledInputs_ok hscaled
  clear hscaled
  induction hlines generalizing w with
  | nil =>
      obtain ⟨-, rfl⟩ := Action.pure_ok.1 h
      rfl
  | @cons i line rs lines hline _ ih =>
      obtain ⟨w₁, hfirst, hrest⟩ := Action.forM_cons_ok.1 h
      obtain ⟨inv, hinv, rfl⟩ := World.removeStock_ok.1 hfirst
      have hremoved : { w with inventory := inv }.goods item +
          (if line.1 = item then line.2.toNat else 0) = w.goods item := World.goods_remove hinv
      have hdrawn := ih hrest
      rw [hline.item, hline.units] at hremoved
      rw [inputsOf_cons]
      omega

/-- Finishing a job adds its output exactly when that completes it, and shows in its state. -/
theorem finishJob_goods {j : Job} {recipe : Recipe} {progress : UInt32} {o : JobOutcome}
    (hj : w.jobs.get? j.id = some j) (h : (finishJob j recipe progress).run w = .ok o w') :
    ∃ k, w'.jobs.get? j.id = some k ∧ k.state ≠ .blocked ∧
      (∀ i, i ≠ j.id → w'.jobs.get? i = w.jobs.get? i) ∧
      w'.goods item = w.goods item + if k.state = .completed ∧ recipe.outputItem = item then
        recipe.outputQuantity.toNat * j.quantity.toNat else 0 := by
  rcases finishJob_ok h with ⟨-, output, inv, houtput, hinv, rfl⟩ | ⟨-, rfl⟩
  · refine ⟨{ j with state := .completed, progress }, ?_, by simp, ?_, ?_⟩
    · exact Roster.get?_modify_found hj fun _ => rfl
    · intro i hi
      exact Roster.get?_modify_of_ne (fun _ => rfl) hi
    · have hadded : { w with inventory := inv }.goods item =
          w.goods item + if recipe.outputItem = item then output.toNat else 0 := World.goods_add hinv
      rw [houtput] at hadded
      simp only [true_and]
      exact hadded
  · refine ⟨{ j with state := .running, progress }, ?_, by simp, ?_, ?_⟩
    · exact Roster.get?_modify_found hj fun _ => rfl
    · intro i hi
      exact Roster.get?_modify_of_ne (fun _ => rfl) hi
    · simp only [reduceCtorEq, false_and, if_false]
      rfl

/-- One job draws and yields what its state before and after says, and leaves other jobs alone. -/
theorem runJob_goods {multipliers : MultiplierTable} {cfg : ProductionConfig} {j : Job}
    {r : JobId × JobOutcome} (hj : w.jobs.get? j.id = some j)
    (h : (runJob multipliers cfg j.id).run w = .ok r w') :
    (∀ i, i ≠ j.id → w'.jobs.get? i = w.jobs.get? i) ∧
      w'.goods item + j.drawnOf w.recipes w'.jobs item =
        w.goods item + j.madeOf w.recipes w'.jobs item := by
  obtain ⟨-, amount, h⟩ := runJob_ok h
  obtain ⟨j', recipe, building, hj', hr, -, h⟩ := advanceJob_ok h
  rw [hj, Option.some_inj] at hj'
  subst hj'
  rcases h with ⟨-, rfl⟩ | ⟨hneeds, inputs, w₁, progress, hscaled, hdraw, hfinish⟩ | ⟨hdone, hfinish⟩
  · have hblocked : (w.modifyJob j.id fun k =>
        { k with state := .blocked, progress := j.progress }).jobs.get? j.id =
        some { j with state := .blocked, progress := j.progress } :=
      Roster.get?_modify_found hj fun _ => rfl
    refine ⟨fun i hi => Roster.get?_modify_of_ne (fun _ => rfl) hi, ?_⟩
    simp only [Job.drawnOf, Job.madeOf, hr, hblocked, ne_eq, not_true, false_and, reduceCtorEq, if_false]
    rfl
  · have hframe := forM_removeStock_frame hdraw
    have hj₁ : w₁.jobs.get? j.id = some j := by
      rw [hframe]
      exact hj
    obtain ⟨k, hk, hunblocked, hothers, hmade⟩ := finishJob_goods item hj₁ hfinish
    have hdrawn := draw_goods item hscaled hdraw
    refine ⟨fun i hi => ?_, ?_⟩
    · rw [hothers i hi, hframe]
    · simp only [Job.drawnOf, Job.madeOf, hr, hk, if_pos (And.intro hunblocked hneeds)]
      omega
  · obtain ⟨k, hk, -, hothers, hmade⟩ := finishJob_goods item hj hfinish
    refine ⟨hothers, ?_⟩
    simp only [Job.drawnOf, Job.madeOf, hr, hk, hdone, and_false, if_false]
    omega

/-- A list of different jobs draws and yields what each of them does. -/
theorem runJobs_goods {multipliers : MultiplierTable} {cfg : ProductionConfig} {js : List Job}
    {outcomes : List (JobId × JobOutcome)} (hnodup : (js.map (·.id)).Nodup)
    (hjs : ∀ j ∈ js, w.jobs.get? j.id = some j)
    (h : ((js.map (·.id)).mapM (runJob multipliers cfg)).run w = .ok outcomes w') :
    (∀ i, i ∉ js.map (·.id) → w'.jobs.get? i = w.jobs.get? i) ∧
      w'.goods item + (js.map (Job.drawnOf w.recipes w'.jobs item)).sum =
        w.goods item + (js.map (Job.madeOf w.recipes w'.jobs item)).sum := by
  induction js generalizing w outcomes with
  | nil =>
      obtain ⟨-, rfl⟩ := Action.mapM_nil_ok.1 h
      exact ⟨fun _ _ => rfl, rfl⟩
  | cons j js ih =>
      obtain ⟨r, w₁, rest, hfirst, hrest, -⟩ := Action.mapM_cons_ok.1 h
      obtain ⟨hfresh, hnodup⟩ := List.nodup_cons.1 hnodup
      obtain ⟨hothers, hgoods⟩ := runJob_goods item (hjs j List.mem_cons_self) hfirst
      have hrecipes : w₁.recipes = w.recipes := by rw [runJob_frame hfirst]
      have hjs₁ : ∀ k ∈ js, w₁.jobs.get? k.id = some k := by
        intro k hk
        have hne : k.id ≠ j.id := fun he => hfresh (List.mem_map.2 ⟨k, hk, he⟩)
        rw [hothers k.id hne]
        exact hjs k (List.mem_cons_of_mem _ hk)
      obtain ⟨hothers', hgoods'⟩ := ih hnodup hjs₁ hrest
      have hkept : w'.jobs.get? j.id = w₁.jobs.get? j.id := hothers' j.id hfresh
      rw [hrecipes] at hgoods'
      refine ⟨fun i hi => ?_, ?_⟩
      · rw [List.map_cons, List.mem_cons, not_or] at hi
        rw [hothers' i hi.2, hothers i hi.1]
      · rw [List.map_cons, List.map_cons, List.sum_cons, List.sum_cons, Job.drawnOf_congr hkept,
          Job.madeOf_congr hkept]
        omega

namespace World

/-- The units of an item that the unfinished jobs of a world have drawn when they are left as in `after`. -/
def drawn (w after : World) (item : ItemId) : Nat :=
  ((w.jobs.filter (·.state.isActive)).map (Job.drawnOf w.recipes after.jobs item)).sum

/-- The units of an item that the unfinished jobs of a world have yielded when they are left as in
`after`. -/
def made (w after : World) (item : ItemId) : Nat :=
  ((w.jobs.filter (·.state.isActive)).map (Job.madeOf w.recipes after.jobs item)).sum

end World

theorem runProduction_goods {multipliers : MultiplierTable} {cfg : ProductionConfig}
    {summary : ProductionSummary} (hw : w.jobs.Ascending)
    (h : (runProduction multipliers cfg).run w = .ok summary w') :
    w'.goods item + w.drawn w' item = w.goods item + w.made w' item := by
  obtain ⟨outcomes, h⟩ := runProduction_ok h
  have hjs : ∀ j ∈ w.jobs.filter (·.state.isActive), w.jobs.get? j.id = some j :=
    fun j hj => Roster.get?_of_mem hw (List.mem_of_mem_filter hj)
  exact (runJobs_goods item (hw.nodup_filter _) hjs h).2

theorem deliverShipment_goods {multipliers : MultiplierTable} {cfg : LogisticsConfig} {sh : Shipment}
    {id : ShipmentId} (hsh : s.world.shipments.get? sh.id = some sh) (htransit : sh.status = .inTransit)
    (h : (deliverShipment multipliers cfg sh).run s = .ok id s') :
    (∀ i, i ≠ sh.id → s'.world.shipments.get? i = s.world.shipments.get? i) ∧
      s'.world.goods item = s.world.goods item := by
  obtain ⟨inv, fee, t, hinv, -, hcharge, rfl⟩ := deliverShipment_ok h
  have hadded : { s.world with inventory := inv }.goods item =
      s.world.goods item + if sh.item = item then sh.quantity.toNat else 0 := World.goods_add hinv
  have hmoved : { s.world with inventory := inv }.MoneyMoved t.world := by
    rcases hcharge with ⟨-, rfl⟩ | ⟨-, hcharge⟩
    · exact .refl _
    · obtain ⟨w₁, hcash, outflow, -, rfl⟩ := Ledger.charge_ok.1 hcharge
      exact Ledger.changeCash_moved hcash
  have hshipments : t.world.shipments = s.world.shipments := by rw [hmoved.frame]
  have hdelivered := World.goods_modifyShipment (w := t.world) (i := item) (hshipments ▸ hsh)
    fun k => { k with status := .delivered }
  rw [Shipment.transitOf_inTransit htransit, Shipment.transitOf_ended (by simp), hmoved.goods,
    hadded] at hdelivered
  refine ⟨fun i hi => ?_, Nat.add_right_cancel hdelivered⟩
  rw [← hshipments]
  exact Roster.get?_modify_of_ne (fun _ => rfl) hi

/-- Arrivals put goods from the way into the stock. -/
theorem deliveries_goods {multipliers : MultiplierTable} {cfg : LogisticsConfig} {shs : List Shipment}
    {ids : List ShipmentId} (hnodup : (shs.map (·.id)).Nodup)
    (hshs : ∀ sh ∈ shs, s.world.shipments.get? sh.id = some sh ∧ sh.status = .inTransit)
    (h : (shs.mapM (deliverShipment multipliers cfg)).run s = .ok ids s') :
    s'.world.goods item = s.world.goods item := by
  induction shs generalizing s ids with
  | nil =>
      obtain ⟨-, rfl⟩ := Action.mapM_nil_ok.1 h
      rfl
  | cons sh shs ih =>
      obtain ⟨id, t, rest, hfirst, hrest, -⟩ := Action.mapM_cons_ok.1 h
      obtain ⟨hfresh, hnodup⟩ := List.nodup_cons.1 hnodup
      obtain ⟨hsh, htransit⟩ := hshs sh List.mem_cons_self
      obtain ⟨hothers, hgoods⟩ := deliverShipment_goods item hsh htransit hfirst
      refine (ih hnodup (fun k hk => ?_) hrest).trans hgoods
      have hne : k.id ≠ sh.id := fun he => hfresh (List.mem_map.2 ⟨k, hk, he⟩)
      rw [hothers k.id hne]
      exact hshs k (List.mem_cons_of_mem _ hk)

theorem advanceShipments_goods {tick : Tick} {multipliers : MultiplierTable} {cfg : LogisticsConfig}
    {ids : List ShipmentId} (hw : s.world.shipments.Ascending)
    (h : (advanceShipments tick multipliers cfg).run s = .ok ids s') :
    s'.world.goods item = s.world.goods item := by
  refine deliveries_goods item (hw.nodup_filter _) (fun sh hsh => ?_) (advanceShipments_ok h)
  obtain ⟨hmem, hdue⟩ := List.mem_filter.1 hsh
  simp only [Shipment.isDue, Bool.and_eq_true, decide_eq_true_eq] at hdue
  exact ⟨Roster.get?_of_mem hw hmem, hdue.1⟩

/-- The units of an item that a contract without a buyer has delivered so far. -/
def Contract.soldOf (item : ItemId) (c : Contract) : Nat :=
  if c.buyer = none ∧ c.item = item then c.fulfilled.toNat else 0

/-- The units of an item that the market pool has bought under the contracts of a world. -/
def World.sold (w : World) (item : ItemId) : Nat := (w.contracts.map (Contract.soldOf item)).sum

/-- What leaves the stock under a contract reaches the buyer, or else is sold to the pool. -/
theorem settleContract_goods {tick : Tick} {id : ContractId} {r : Option ContractDelivery}
    (h : (settleContract tick id).run s = .ok r s') :
    s'.world.goods item + s'.world.sold item = s.world.goods item + s.world.sold item := by
  obtain ⟨c, q, hc, hq, ⟨-, rfl⟩ | ⟨-, value, inv, t, -, hinv, hpay, rfl⟩⟩ := settleContract_ok h
  · rfl
  · obtain ⟨hfits, -, -⟩ := deliverable_ok hq
    have hremoved : { s.world with inventory := inv }.goods item +
        (if c.item = item then q.toNat else 0) = s.world.goods item := World.goods_remove hinv
    have hcontracts : t.world.contracts = s.world.contracts := by rw [payDelivery_frame hpay]
    have hnoted := Roster.sum_modify hc (·.deliver q) (Contract.soldOf item)
    rw [← hcontracts] at hnoted
    have hdelivered := Contract.fulfilled_deliver hfits
    show t.world.goods item + ((t.world.contracts.modify id (·.deliver q)).map (Contract.soldOf item)).sum
      = s.world.goods item + (s.world.contracts.map (Contract.soldOf item)).sum
    rw [← hcontracts]
    rcases payDelivery_ok hpay with ⟨buyer, r, w₁, inv', hbuyer, hsettle, hinv', rfl⟩ |
      ⟨hnone, w₁, inflow, hcash, -, rfl⟩
    · have hsold (k : Contract) (hk : k.buyer = some buyer) : k.soldOf item = 0 := by
        simp [Contract.soldOf, hk]
      rw [hsold c hbuyer, hsold (c.deliver q) hbuyer] at hnoted
      have hadded : { w₁ with inventory := inv' }.goods item =
          w₁.goods item + if c.item = item then q.toNat else 0 := World.goods_add hinv'
      have hpaid : w₁.goods item = { s.world with inventory := inv }.goods item :=
        (Ledger.settle_moved hsettle).goods
      dsimp only at hnoted ⊢
      rw [hadded, hpaid, hremoved]
      omega
    · have hpool : (c.deliver q).buyer = none := hnone
      have hitem : (c.deliver q).item = c.item := rfl
      have hsame : w₁.goods item = { s.world with inventory := inv }.goods item :=
        (Ledger.changeCash_moved hcash).goods
      simp only [Contract.soldOf, hnone, hpool, hitem, true_and, hdelivered] at hnoted
      dsimp only at hnoted ⊢
      by_cases hi : c.item = item
      · rw [if_pos hi] at hremoved
        rw [if_pos hi, if_pos hi] at hnoted
        omega
      · rw [if_neg hi] at hremoved
        rw [if_neg hi, if_neg hi] at hnoted
        omega

theorem settleContracts_goods {tick : Tick} {deliveries : List ContractDelivery}
    (h : (settleContracts tick).run s = .ok deliveries s') :
    s'.world.goods item + s'.world.sold item = s.world.goods item + s.world.sold item := by
  obtain ⟨rs, h⟩ := settleContracts_ok h
  exact Action.mapM_keeps
    (P := fun t => t.world.goods item + t.world.sold item = s.world.goods item + s.world.sold item)
    (fun id _ t r t' ht hrun => (settleContract_goods item hrun).trans ht) rfl h

theorem runPhases_goods {cfg : EngineConfig} {tick : Tick} {o : TickOutcome}
    (horders : s.world.orders.Ascending) (hjobs : s.world.jobs.Ascending)
    (hshipments : s.world.shipments.Ascending) (h : (runPhases tick cfg).run s = .ok o s') :
    s'.world.goods item + s.world.drawn s'.world item + s'.world.sold item =
      s.world.goods item + s.world.made s'.world item + s.world.sold item := by
  obtain ⟨s₁, w₂, w₃, s₄, hbots, hclear, hproduction, hdelivered, hdeliveries⟩ := runPhases_ok h
  have hmoved := supplyBots_moved hbots
  have hcleared := clearMarkets_frame hclear
  have hproduced := runProduction_frame hproduction
  have harrived := advanceShipments_frame hdelivered
  have hsettled := settleContracts_frame hdeliveries
  have hjobs₂ : w₂.jobs = s.world.jobs := by rw [hcleared, hmoved.frame]
  have hrecipes₂ : w₂.recipes = s.world.recipes := by rw [hcleared, hmoved.frame]
  have hjobs₃ : w₃.jobs = s'.world.jobs := by rw [hsettled, harrived]
  have hshipments₃ : w₃.shipments = s.world.shipments := by
    rw [hproduced, World.retainRecentTrades, hcleared, hmoved.frame]
  have hcontracts₄ : s₄.world.contracts = s.world.contracts := by
    rw [harrived, hproduced, World.retainRecentTrades, hcleared, hmoved.frame]
  have horders₁ : s₁.world.orders.Ascending := by
    rw [hmoved.frame]
    exact horders
  have hgoods₂ : w₂.goods item = s.world.goods item :=
    (clearMarkets_goods item horders₁ hclear).trans hmoved.goods
  have hgoods₃ := runProduction_goods item (by
    rw [World.retainRecentTrades, hjobs₂]
    exact hjobs) hproduction
  have hgoods₄ := advanceShipments_goods item (by
    rw [hshipments₃]
    exact hshipments) hdelivered
  have hgoods₅ := settleContracts_goods item hdeliveries
  have hsold : s₄.world.sold item = s.world.sold item := by rw [World.sold, World.sold, hcontracts₄]
  have hretained : (w₂.retainRecentTrades tick cfg.health.tradesWindowTicks).goods item =
      w₂.goods item := rfl
  have hdrawn : (w₂.retainRecentTrades tick cfg.health.tradesWindowTicks).drawn w₃ item =
      s.world.drawn s'.world item := by
    rw [World.drawn, World.drawn, ← hjobs₂, ← hrecipes₂, ← hjobs₃]
    rfl
  have hmade : (w₂.retainRecentTrades tick cfg.health.tradesWindowTicks).made w₃ item =
      s.world.made s'.world item := by
    rw [World.made, World.made, ← hjobs₂, ← hrecipes₂, ← hjobs₃]
    rfl
  rw [hretained, hdrawn, hmade] at hgoods₃
  calc s'.world.goods item + s.world.drawn s'.world item + s'.world.sold item
      = s₄.world.goods item + s.world.drawn s'.world item + s.world.sold item := by omega
    _ = w₃.goods item + s.world.drawn s'.world item + s.world.sold item := by rw [hgoods₄]
    _ = w₂.goods item + s.world.made s'.world item + s.world.sold item := by omega
    _ = s.world.goods item + s.world.made s'.world item + s.world.sold item := by rw [hgoods₂]

/-- Goods are conserved: a command leaves the units of every item in stock, in escrow and on their way as
they are, and a tick changes them by what jobs yield, less what jobs draw, less what the market pool buys. -/
theorem goods_conserved (cfg : EngineConfig) (w : World) :
    (∀ (c : Command) (w' : World), (c.act cfg).run w = .ok () w' →
      ∀ item, w'.goods item = w.goods item) ∧
      (w.orders.Ascending → w.jobs.Ascending → w.shipments.Ascending →
        ∀ report trades w', (step cfg).run w = .ok (report, trades) w' → ∀ item,
          (w'.goods item : Int) - w.goods item =
            w.made w' item - w.drawn w' item - ((w'.sold item : Int) - w.sold item)) := by
  refine ⟨fun c w' h item => Command.goods_act h item, ?_⟩
  intro horders hjobs hshipments report trades w' h item
  obtain ⟨tick, before, after, drift, o, t, -, -, hphases, hclock, -, -, -, -⟩ := step_ok h
  have hgoods := runPhases_goods item horders hjobs hshipments hphases
  obtain ⟨v, -, rfl⟩ := moveClock_ok.1 hclock
  change t.world.goods item + w.drawn t.world item + t.world.sold item =
    w.goods item + w.made t.world item + w.sold item at hgoods
  show (t.world.goods item : Int) - w.goods item =
    w.made t.world item - w.drawn t.world item - ((t.world.sold item : Int) - w.sold item)
  omega

/-- In the busy world the smith's job draws six units of ore and yields three of metal, which the pool
buys at once; a further sell order then only moves ore into escrow. -/
theorem goods_conserved_busy :
    (busyWorld.orders.Ascending ∧ busyWorld.jobs.Ascending ∧ busyWorld.shipments.Ascending) ∧
      (∃ report trades w', (step busyConfig).run busyWorld = .ok (report, trades) w' ∧
        (w'.goods ⟨3⟩ : Int) - busyWorld.goods ⟨3⟩ = -6 ∧
        (w'.goods ⟨4⟩ : Int) - busyWorld.goods ⟨4⟩ = 0 ∧ w'.sold ⟨4⟩ = 3) ∧
      ∃ w', ((Command.placeOrder ⟨⟨6⟩, ⟨1⟩, ⟨3⟩, .sell, 9, 2⟩).act busyConfig).run busyWorld =
          .ok () w' ∧ w'.goods ⟨3⟩ = busyWorld.goods ⟨3⟩ := by
  have hasc : busyWorld.orders.Ascending ∧ busyWorld.jobs.Ascending ∧ busyWorld.shipments.Ascending := by
    decide +kernel
  have hsummary : ((step busyConfig).outcome busyWorld).map (fun r =>
      (busyWorld.made r.2 ⟨3⟩, busyWorld.drawn r.2 ⟨3⟩, r.2.sold ⟨3⟩,
        busyWorld.made r.2 ⟨4⟩, busyWorld.drawn r.2 ⟨4⟩, r.2.sold ⟨4⟩)) = .ok (0, 6, 0, 3, 0, 3) := by
    decide +kernel
  have hbefore : busyWorld.sold ⟨3⟩ = 0 ∧ busyWorld.sold ⟨4⟩ = 0 := by decide +kernel
  have hplaced : (((Command.placeOrder ⟨⟨6⟩, ⟨1⟩, ⟨3⟩, .sell, 9, 2⟩).act busyConfig).outcome
      busyWorld).isOk := by decide +kernel
  obtain ⟨hcommand, hstep⟩ := goods_conserved busyConfig busyWorld
  refine ⟨hasc, ?_, ?_⟩
  · obtain ⟨⟨⟨report, trades⟩, w'⟩, hrun, hreport⟩ := Check.map_ok.1 hsummary
    have hrun := Action.outcome_ok.1 hrun
    have hore := hstep hasc.1 hasc.2.1 hasc.2.2 report trades w' hrun ⟨3⟩
    have hmetal := hstep hasc.1 hasc.2.1 hasc.2.2 report trades w' hrun ⟨4⟩
    simp only [Prod.mk.injEq] at hreport
    refine ⟨report, trades, w', hrun, ?_, ?_, ?_⟩ <;> omega
  · obtain ⟨_, w', hrun⟩ := Action.ok_of_outcome_isOk hplaced
    exact ⟨w', hrun, hcommand _ _ hrun ⟨3⟩⟩

end Mercantile
