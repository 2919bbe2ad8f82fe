import Mercantile.Proofs.Accounting
import Mercantile.Proofs.Runs

/-!
Lives that end. Orders, jobs, shipments and contracts are open for a while and then ended for good
(`Staged`): an operation changes a few fields of what is open, and puts new entities behind the old ones
(`Roster.Continues`). A phase of a tick works through a list that it made at its beginning, and each entity
on it is still open when its turn comes, because the turns before it were those of others
(`Roster.proceed_of_mapM`). So what has ended stays as it is through every run, and no later tick names
it (`finished_forever`).
-/

namespace Mercantile

/-- Entities whose life ends. -/
class Staged (α : Type) {kind : outParam EntityKind} [Keyed α kind] where
  ended : α → Bool
  /-- The entity without what may change while it is open. -/
  terms : α → α
  key_terms : ∀ a, key (terms a) = key a

export Staged (ended terms)

instance : Staged Order where
  ended o := !o.status.isOpen
  terms o := { o with remaining := 0, status := .unfilled }
  key_terms _ := rfl

instance : Staged Job where
  ended j := !j.state.isActive
  terms j := { j with progress := 0, state := .queued }
  key_terms _ := rfl

instance : Staged Shipment where
  ended s := s.status ≠ .inTransit
  terms s := { s with status := .inTransit }
  key_terms _ := rfl

instance : Staged Contract where
  ended c := !c.status.isOpen
  terms c := { c with fulfilled := 0, status := .unfulfilled }
  key_terms _ := rfl

theorem Order.ended_iff {o : Order} : ended o ↔ o.status = .filled ∨ o.status = .cancelled := by
  cases h : o.status <;> simp [ended, h, OrderStatus.isOpen]

theorem Order.not_ended {o : Order} : ¬ ended o ↔ o.status.isOpen := by simp [ended]

theorem Job.ended_iff {j : Job} : ended j ↔ j.state = .completed ∨ j.state = .cancelled := by
  cases h : j.state <;> simp [ended, h, JobState.isActive]

theorem Job.not_ended {j : Job} : ¬ ended j ↔ j.state.isActive := by simp [ended]

theorem Shipment.ended_iff {sh : Shipment} : ended sh ↔ sh.status = .delivered ∨ sh.status = .cancelled := by
  cases h : sh.status <;> simp [ended, h]

theorem Shipment.not_ended {sh : Shipment} : ¬ ended sh ↔ sh.status = .inTransit := by simp [ended]

theorem Contract.ended_iff {c : Contract} : ended c ↔ c.status = .fulfilled ∨ c.status = .cancelled := by
  cases h : c.status <;> simp [ended, h, ContractStatus.isOpen]

theorem Contract.not_ended {c : Contract} : ¬ ended c ↔ c.status.isOpen := by simp [ended]

/-- Related lists split where one of them does. -/
theorem forall₂_append_left {α β : Type} {R : α → β → Prop} {as as' : List α} {cs : List β}
    (h : List.Forall₂ R (as ++ as') cs) :
    ∃ bs bs', cs = bs ++ bs' ∧ List.Forall₂ R as bs ∧ List.Forall₂ R as' bs' := by
  have htake := List.forall₂_take as.length h
  have hdrop := List.forall₂_drop as.length h
  rw [List.take_left] at htake
  rw [List.drop_left] at hdrop
  exact ⟨_, _, (List.take_append_drop as.length cs).symm, htake, hdrop⟩

theorem exists_of_forall₂_mem {α β : Type} {R : α → β → Prop} {as : List α} {bs : List β}
    (h : List.Forall₂ R as bs) {a : α} (ha : a ∈ as) : ∃ b ∈ bs, R a b := by
  induction h with
  | nil => cases ha
  | cons hab _ ih =>
      rcases List.mem_cons.1 ha with rfl | ha
      · exact ⟨_, List.mem_cons_self, hab⟩
      · obtain ⟨b, hb, hab⟩ := ih ha
        exact ⟨b, List.mem_cons_of_mem _ hb, hab⟩

section Staged

variable {α : Type} {kind : EntityKind} [Keyed α kind] [Staged α]

/-- The same entity at a later time: its terms are what they were, and all of it is if it had ended. -/
structure Proceeds (a b : α) : Prop where
  terms : terms b = terms a
  ended : ended a → b = a

namespace Proceeds

variable {a b c : α}

theorem refl (a : α) : Proceeds a a := ⟨rfl, fun _ => rfl⟩

theorem trans (h : Proceeds a b) (h' : Proceeds b c) : Proceeds a c where
  terms := h'.terms.trans h.terms
  ended := by
    intro ha
    have hb := h.ended ha
    rw [hb] at h'
    exact h'.ended ha

theorem key_eq (h : Proceeds a b) : key b = key a := by
  rw [← Staged.key_terms b, h.terms, Staged.key_terms]

theorem of_open (hterms : Mercantile.terms b = Mercantile.terms a) (ha : ¬ Mercantile.ended a) :
    Proceeds a b := ⟨hterms, fun hend => absurd hend ha⟩

end Proceeds

namespace Roster

/-- An entity is found under its identifier, and no other has that identifier. -/
def Settled (xs : Roster α) (a : α) : Prop := xs.get? (key a) = some a ∧ ∀ b ∈ xs, key b = key a → b = a

/-- A list that names open entities only does not name one that has ended. -/
theorem Settled.not_mem {xs : Roster α} {a : α} (h : xs.Settled a) (hend : ended a)
    {named : List (Id kind)} (hnamed : ∀ i ∈ named, ∃ b ∈ xs, key b = i ∧ ¬ ended b) : key a ∉ named := by
  intro hmem
  obtain ⟨b, hb, hkey, hopen⟩ := hnamed (key a) hmem
  rw [h.2 b hb hkey] at hopen
  exact hopen hend

/-- A roster at a later time: what was there has proceeded in its place, and what follows is new, with
numbers after `n` up to `m`. -/
def Continues (n m : UInt64) (xs ys : Roster α) : Prop :=
  ∃ zs fresh : Roster α, ys = zs ++ fresh ∧ List.Forall₂ Proceeds xs zs ∧ UpTo m fresh ∧
    ∀ a ∈ fresh, n.toNat < (key a).toNat

theorem keys_of_forall₂ {xs ys : Roster α} (h : List.Forall₂ Proceeds xs ys) : ys.keys = xs.keys := by
  induction h with
  | nil => rfl
  | cons hab _ ih =>
      simp only [keys, List.map_cons] at ih ⊢
      rw [hab.key_eq, ih]

theorem proceed_modify {xs : Roster α} {i : Id kind} {f : α → α}
    (hf : ∀ a, xs.get? i = some a → Proceeds a (f a)) : List.Forall₂ Proceeds xs (xs.modify i f) := by
  have hsame (as : List α) : List.Forall₂ Proceeds as as := List.forall₂_same.2 fun a _ => .refl a
  cases ha : xs.get? i with
  | none =>
      rw [modify_of_get?_eq_none ha]
      exact hsame xs
  | some a =>
      obtain ⟨before, after, hxs, hmodify⟩ := get?_split ha
      rw [hmodify f, hxs]
      exact List.rel_append (hsame before) (.cons (hf a ha) (hsame after))

theorem proceed_trans {xs ys zs : Roster α} (h : List.Forall₂ Proceeds xs ys)
    (h' : List.Forall₂ Proceeds ys zs) : List.Forall₂ Proceeds xs zs :=
  forall₂_trans (fun _ _ _ hab hbc => hab.trans hbc) h h'

/-- Operations in sequence, each of which changes an open entity that is its own, let a roster proceed. -/
theorem proceed_of_mapM {σ β γ : Type} (view : σ → Roster α) (i : β → Id kind) {f : β → Action σ γ}
    {bs : List β} {cs : List γ} {s s' : σ} (hnodup : (bs.map i).Nodup)
    (hf : ∀ b ∈ bs, ∀ t c t', (f b).run t = .ok c t' →
      ∃ g, (∀ a, terms (g a) = terms a) ∧ view t' = (view t).modify (i b) g)
    (hopen : ∀ b ∈ bs, ∀ a, (view s).get? (i b) = some a → ¬ ended a)
    (h : (bs.mapM f).run s = .ok cs s') : List.Forall₂ Proceeds (view s) (view s') := by
  induction bs generalizing s cs with
  | nil =>
      obtain ⟨-, rfl⟩ := Action.mapM_nil_ok.1 h
      exact List.forall₂_same.2 fun a _ => .refl a
  | cons b bs ih =>
      obtain ⟨c, t, rest, hfirst, hrest, -⟩ := Action.mapM_cons_ok.1 h
      obtain ⟨hfresh, hnodup⟩ := List.nodup_cons.1 hnodup
      obtain ⟨g, hg, hview⟩ := hf b List.mem_cons_self s c t hfirst
      have hkeys (a : α) : key (g a) = key a := by rw [← Staged.key_terms (g a), hg, Staged.key_terms]
      have hchanged : List.Forall₂ Proceeds (view s) (view t) := by
        rw [hview]
        exact proceed_modify fun a ha => .of_open (hg a) (hopen b List.mem_cons_self a ha)
      refine proceed_trans hchanged (ih hnodup ?_ (fun b' hb' a ha => ?_) hrest)
      · exact fun b' hb' => hf b' (List.mem_cons_of_mem _ hb')
      · have hne : i b' ≠ i b := fun he => hfresh (he ▸ List.mem_map_of_mem hb')
        rw [hview, get?_modify_of_ne hkeys hne] at ha
        exact hopen b' (List.mem_cons_of_mem _ hb') a ha

namespace Continues

variable {n m k : UInt64} {xs ys zs : Roster α}

theorem of_forall₂ (h : List.Forall₂ Proceeds xs ys) : Continues n m xs ys :=
  ⟨ys, [], (List.append_nil ys).symm, h, ⟨List.Pairwise.nil, nofun⟩, nofun⟩

theorem refl (xs : Roster α) : Continues n m xs xs :=
  of_forall₂ (List.forall₂_same.2 fun a _ => .refl a)

/-- An open entity that was looked up is changed. -/
theorem modify_found {i : Id kind} {f : α → α} {a : α} (ha : xs.get? i = some a)
    (hterms : terms (f a) = terms a) (hopen : ¬ ended a) : Continues n m xs (xs.modify i f) := by
  refine of_forall₂ (proceed_modify fun b hb => ?_)
  rw [ha, Option.some_inj] at hb
  exact hb ▸ .of_open hterms hopen

theorem append (xs : Roster α) {a : α} (hn : n.toNat < (key a).toNat) (hm : (key a).toNat ≤ m.toNat) :
    Continues n m xs (xs ++ [a]) := by
  refine ⟨xs, [a], rfl, List.forall₂_same.2 fun b _ => .refl b, ⟨List.pairwise_singleton _ _, ?_⟩, ?_⟩
  all_goals
    intro b hb
    rw [List.mem_singleton.1 hb]
    assumption

theorem upTo (h : Continues n m xs ys) (hnm : n.toNat ≤ m.toNat) (hxs : UpTo n xs) : UpTo m ys := by
  obtain ⟨zs, fresh, rfl, hold, hfresh, hnew⟩ := h
  have hzs := hxs.congr (keys_of_forall₂ hold)
  exact (hzs.mono hnm).appendAll hfresh fun b hb a ha => Nat.lt_of_le_of_lt (hzs.bounded a ha) (hnew b hb)

/-- New entities proceed as the old ones do. -/
theorem trans (h : Continues n m xs ys) (h' : Continues m k ys zs) (hnm : n.toNat ≤ m.toNat)
    (hmk : m.toNat ≤ k.toNat) : Continues n k xs zs := by
  obtain ⟨xs', fresh, rfl, hold, hfresh, hnew⟩ := h
  obtain ⟨ys', fresher, rfl, hold', hfresher, hnewer⟩ := h'
  obtain ⟨xs'', fresh', rfl, hkept, hkept'⟩ := forall₂_append_left hold'
  have hfresh' := hfresh.congr (keys_of_forall₂ hkept')
  refine ⟨xs'', fresh' ++ fresher, List.append_assoc _ _ _, proceed_trans hold hkept, ?_, ?_⟩
  · exact (hfresh'.mono hmk).appendAll hfresher fun b hb a ha =>
      Nat.lt_of_le_of_lt (hfresh'.bounded a ha) (hnewer b hb)
  · intro a ha
    rcases List.mem_append.1 ha with ha | ha
    · have hmem : (key a).toNat ∈ keys fresh := keys_of_forall₂ hkept' ▸ List.mem_map_of_mem ha
      obtain ⟨b, hb, hab⟩ := List.mem_map.1 hmem
      rw [← hab]
      exact hnew b hb
    · exact Nat.lt_of_le_of_lt hnm (hnewer a ha)

/-- What was there is found again under its identifier. -/
theorem found (h : Continues n m xs ys) (hnm : n.toNat ≤ m.toNat) (hxs : UpTo n xs) {a : α} (ha : a ∈ xs) :
    ∃ b, ys.get? (key a) = some b ∧ Proceeds a b := by
  have hys := h.upTo hnm hxs
  obtain ⟨zs, fresh, rfl, hold, -, -⟩ := h
  obtain ⟨b, hb, hab⟩ := exists_of_forall₂_mem hold ha
  refine ⟨b, ?_, hab⟩
  rw [← hab.key_eq]
  exact get?_of_mem hys.ascending (List.mem_append_left fresh hb)

/-- What has ended stays. -/
theorem settled (h : Continues n m xs ys) (hnm : n.toNat ≤ m.toNat) (hxs : UpTo n xs) {a : α}
    (ha : a ∈ xs) (hend : ended a) : ys.Settled a := by
  obtain ⟨a', hget, hproceeds⟩ := h.found hnm hxs ha
  obtain rfl := hproceeds.ended hend
  exact ⟨hget, fun b hb hkey => (h.upTo hnm hxs).ascending.eq_of_key_eq hb (mem_of_get? hget) hkey⟩

end Continues

end Roster

end Staged

open Roster (UpTo)

/-- A world at a later time. A roster whose identifiers ascend up to the last number has continued. -/
structure World.Continues (w w' : World) : Prop where
  nextId : w.nextId.toNat ≤ w'.nextId.toNat
  orders : UpTo w.nextId w.orders → Roster.Continues w.nextId w'.nextId w.orders w'.orders
  jobs : UpTo w.nextId w.jobs → Roster.Continues w.nextId w'.nextId w.jobs w'.jobs
  shipments : UpTo w.nextId w.shipments → Roster.Continues w.nextId w'.nextId w.shipments w'.shipments
  contracts : UpTo w.nextId w.contracts → Roster.Continues w.nextId w'.nextId w.contracts w'.contracts

namespace World.Continues

variable {w w₁ w' : World}

theorem refl (w : World) : w.Continues w where
  nextId := Nat.le_refl _
  orders := fun _ => .refl _
  jobs := fun _ => .refl _
  shipments := fun _ => .refl _
  contracts := fun _ => .refl _

theorem trans (h : w.Continues w₁) (h' : w₁.Continues w') : w.Continues w' where
  nextId := Nat.le_trans h.nextId h'.nextId
  orders := fun hw => (h.orders hw).trans (h'.orders ((h.orders hw).upTo h.nextId hw)) h.nextId h'.nextId
  jobs := fun hw => (h.jobs hw).trans (h'.jobs ((h.jobs hw).upTo h.nextId hw)) h.nextId h'.nextId
  shipments := fun hw =>
    (h.shipments hw).trans (h'.shipments ((h.shipments hw).upTo h.nextId hw)) h.nextId h'.nextId
  contracts := fun hw =>
    (h.contracts hw).trans (h'.contracts ((h.contracts hw).upTo h.nextId hw)) h.nextId h'.nextId

end World.Continues

variable {w w' : World} {s s' : Account}

/-- Placing an order touches money, stocks and orders only. -/
theorem placeOrder_frame {r : OrderRequest} {id : OrderId} (h : (placeOrder r).run w = .ok id w') :
    id.toNat = w.nextId.toNat + 1 ∧ w' = { w with
      companies := w'.companies, inventory := w'.inventory, nextId := id.val
      orders := w.orders ++ [r.order id w.clock.currentTick] } := by
  obtain ⟨-, -, -, -, -, total, w₁, -, hback, hid, rfl⟩ := placeOrder_ok h
  rcases hback with ⟨-, hreserve⟩ | ⟨-, hremove⟩
  · rw [(Ledger.reserve_moved hreserve).frame] at hid ⊢
    exact ⟨hid, rfl⟩
  · obtain ⟨inv, -, rfl⟩ := World.removeStock_ok.1 hremove
    exact ⟨hid, rfl⟩

theorem cancelOrder_frame {id : OrderId} {u : Unit} (h : (cancelOrder id).run w = .ok u w') :
    ∃ o, w.orders.get? id = some o ∧ o.status.isOpen ∧ w' = { w with
      companies := w'.companies, inventory := w'.inventory
      orders := w.orders.modify id fun o => { o with status := .cancelled } } := by
  obtain ⟨o, w₁, ho, hopen, hback, rfl⟩ := cancelOrder_ok h
  refine ⟨o, ho, hopen, ?_⟩
  rcases hback with ⟨-, amount, -, hrelease⟩ | ⟨-, hadd⟩
  · rw [(Ledger.release_moved hrelease).frame]
    rfl
  · obtain ⟨inv, -, rfl⟩ := World.addStock_ok.1 hadd
    rfl

theorem createContract_frame {r : ContractRequest} {id : ContractId}
    (h : (createContract r).run w = .ok id w') :
    id.toNat = w.nextId.toNat + 1 ∧ w' = { w with
      companies := w'.companies, nextId := id.val
      contracts := w.contracts ++ [r.contract id w.clock.currentTick] } := by
  obtain ⟨-, -, -, -, -, total, w₁, -, hback, hid, rfl⟩ := createContract_ok h
  rcases hback with ⟨-, rfl⟩ | ⟨buyer, c, -, -, hreserve⟩
  · exact ⟨hid, rfl⟩
  · rw [(Ledger.reserve_moved hreserve).frame] at hid ⊢
    exact ⟨hid, rfl⟩

theorem cancelContract_frame {id : ContractId} {u : Unit} (h : (cancelContract id).run w = .ok u w') :
    ∃ c, w.contracts.get? id = some c ∧ c.status.isOpen ∧ w' = { w with
      companies := w'.companies
      contracts := w.contracts.modify id fun c => { c with status := .cancelled } } := by
  obtain ⟨c, w₁, hc, hopen, hback, rfl⟩ := cancelContract_ok h
  refine ⟨c, hc, hopen, ?_⟩
  rcases hback with ⟨-, rfl⟩ | ⟨buyer, amount, -, -, hrelease⟩
  · rfl
  · rw [(Ledger.release_moved hrelease).frame]
    rfl

/-- A command changes one entity that is open, or puts a new one behind the others. -/
theorem Command.continues {cfg : EngineConfig} {c : Command} (h : (c.act cfg).run w = .ok () w') :
    w.Continues w' := by
  have hnext := Command.nextId_le h
  cases c with
  | placeOrder r =>
      obtain ⟨id, h, -⟩ := Action.map_ok.1 h
      obtain ⟨hid, hframe⟩ := placeOrder_frame h
      rw [hframe]
      exact
        { nextId := Nat.le_of_lt (Nat.lt_of_succ_le hid.ge), jobs := fun _ => .refl _
          shipments := fun _ => .refl _, contracts := fun _ => .refl _
          orders := fun _ => .append _ (Nat.lt_of_succ_le hid.ge) (Nat.le_refl _) }
  | cancelOrder id =>
      obtain ⟨o, ho, hopen, hframe⟩ := cancelOrder_frame h
      rw [hframe]
      exact
        { nextId := Nat.le_refl _, jobs := fun _ => .refl _, shipments := fun _ => .refl _
          contracts := fun _ => .refl _
          orders := fun _ => .modify_found ho rfl (Order.not_ended.2 hopen) }
  | createContract r =>
      obtain ⟨id, h, -⟩ := Action.map_ok.1 h
      obtain ⟨hid, hframe⟩ := createContract_frame h
      rw [hframe]
      exact
        { nextId := Nat.le_of_lt (Nat.lt_of_succ_le hid.ge), orders := fun _ => .refl _
          jobs := fun _ => .refl _, shipments := fun _ => .refl _
          contracts := fun _ => .append _ (Nat.lt_of_succ_le hid.ge) (Nat.le_refl _) }
  | cancelContract id =>
      obtain ⟨c, hc, hopen, hframe⟩ := cancelContract_frame h
      rw [hframe]
      exact
        { nextId := Nat.le_refl _, orders := fun _ => .refl _, jobs := fun _ => .refl _
          shipments := fun _ => .refl _
          contracts := fun _ => .modify_found hc rfl (Contract.not_ended.2 hopen) }
  | startJob r =>
      obtain ⟨id, h, -⟩ := Action.map_ok.1 h
      obtain ⟨-, -, building, recipe, inputs, -, -, -, -, -, -, -, hid, rfl⟩ := startJob_ok h
      exact
        { nextId := hnext, orders := fun _ => .refl _, shipments := fun _ => .refl _
          contracts := fun _ => .refl _
          jobs := fun _ => .append _ (Nat.lt_of_succ_le hid.ge) (Nat.le_refl _) }
  | cancelJob id =>
      obtain ⟨j, hj, hactive, rfl⟩ := cancelJob_ok h
      exact
        { World.Continues.refl w with
          jobs := fun _ => .modify_found hj rfl (Job.not_ended.2 hactive) }
  | createShipment r =>
      obtain ⟨id, h, -⟩ := Action.map_ok.1 h
      obtain ⟨-, -, -, -, -, -, -, eta, inv, -, -, hid, rfl⟩ := createShipment_ok h
      exact
        { nextId := hnext, orders := fun _ => .refl _, jobs := fun _ => .refl _
          contracts := fun _ => .refl _
          shipments := fun _ => .append _ (Nat.lt_of_succ_le hid.ge) (Nat.le_refl _) }
  | cancelShipment id =>
      obtain ⟨sh, inv, hsh, htransit, -, rfl⟩ := cancelShipment_ok h
      exact
        { World.Continues.refl w with
          shipments := fun _ => .modify_found hsh rfl (Shipment.not_ended.2 htransit) }
  | setAllocation a =>
      obtain ⟨-, -, rfl⟩ := setAllocation_ok h
      exact { World.Continues.refl w with }

/-- Two of the commands are about jobs, and two about shipments; the others leave both alone. -/
theorem Command.kept_unless {cfg : EngineConfig} {c : Command} (h : (c.act cfg).run w = .ok () w') :
    (w'.jobs = w.jobs ∨ (∃ r, c = .startJob r) ∨ ∃ id, c = .cancelJob id) ∧
      (w'.shipments = w.shipments ∨ (∃ r, c = .createShipment r) ∨ ∃ id, c = .cancelShipment id) := by
  cases c with
  | placeOrder r =>
      obtain ⟨id, h, -⟩ := Action.map_ok.1 h
      rw [(placeOrder_frame h).2]
      exact ⟨Or.inl rfl, Or.inl rfl⟩
  | cancelOrder id =>
      obtain ⟨o, -, -, hframe⟩ := cancelOrder_frame h
      rw [hframe]
      exact ⟨Or.inl rfl, Or.inl rfl⟩
  | createContract r =>
      obtain ⟨id, h, -⟩ := Action.map_ok.1 h
      rw [(createContract_frame h).2]
      exact ⟨Or.inl rfl, Or.inl rfl⟩
  | cancelContract id =>
      obtain ⟨c, -, -, hframe⟩ := cancelContract_frame h
      rw [hframe]
      exact ⟨Or.inl rfl, Or.inl rfl⟩
  | startJob r =>
      obtain ⟨id, h, -⟩ := Action.map_ok.1 h
      obtain ⟨-, -, building, recipe, inputs, -, -, -, -, -, -, -, -, rfl⟩ := startJob_ok h
      exact ⟨Or.inr (Or.inl ⟨r, rfl⟩), Or.inl rfl⟩
  | cancelJob id =>
      obtain ⟨j, -, -, rfl⟩ := cancelJob_ok h
      exact ⟨Or.inr (Or.inr ⟨id, rfl⟩), Or.inl rfl⟩
  | createShipment r =>
      obtain ⟨id, h, -⟩ := Action.map_ok.1 h
      obtain ⟨-, -, -, -, -, -, -, eta, inv, -, -, -, rfl⟩ := createShipment_ok h
      exact ⟨Or.inl rfl, Or.inr (Or.inl ⟨r, rfl⟩)⟩
  | cancelShipment id =>
      obtain ⟨sh, inv, -, -, -, rfl⟩ := cancelShipment_ok h
      exact ⟨Or.inl rfl, Or.inr (Or.inr ⟨id, rfl⟩)⟩
  | setAllocation a =>
      obtain ⟨-, -, rfl⟩ := setAllocation_ok h
      exact ⟨Or.inl rfl, Or.inl rfl⟩

/-- What is on a work list of open entities is open. -/
theorem Roster.open_of_mem_filter {α : Type} {kind : EntityKind} [Keyed α kind] [Staged α] {xs : Roster α}
    {p : α → Bool} (hxs : xs.Ascending) (hp : ∀ a, p a → ¬ ended a) {i : Id kind}
    (hi : i ∈ (xs.filter p).map key) {a : α} (ha : xs.get? i = some a) : ¬ ended a := by
  obtain ⟨b, hb, rfl⟩ := List.mem_map.1 hi
  obtain ⟨hmem, hopen⟩ := List.mem_filter.1 hb
  rw [get?_of_mem hxs hmem, Option.some_inj] at ha
  exact ha ▸ hp b hopen

theorem clearMarkets_proceeds {tick : Tick} {trades : List Trade} (hw : w.orders.Ascending)
    (h : (clearMarkets tick).run w = .ok trades w') : List.Forall₂ Proceeds w.orders w'.orders := by
  rw [clearMarkets_orders hw h, List.forall₂_map_right_iff, List.forall₂_same]
  intro o ho
  constructor
  · rw [Order.traded]
    split <;> rfl
  · intro hend
    have hnone : taken o.id (w.matchList.map (·.2)) = 0 := by
      by_contra hsome
      exact Order.not_ended.2 (Order.status_of_isOpen (World.isOpen_of_taken hw ho hsome)) hend
    rw [hnone, Order.traded_zero]

theorem finishJob_jobs {j : Job} {recipe : Recipe} {progress : UInt32} {o : JobOutcome}
    (h : (finishJob j recipe progress).run w = .ok o w') :
    ∃ state, w'.jobs = w.jobs.modify j.id fun k => { k with state, progress } := by
  rcases finishJob_ok h with ⟨-, output, inv, -, -, rfl⟩ | ⟨-, rfl⟩
  · exact ⟨.completed, rfl⟩
  · exact ⟨.running, rfl⟩

theorem runJob_jobs {multipliers : MultiplierTable} {cfg : ProductionConfig} {id : JobId}
    {r : JobId × JobOutcome} (h : (runJob multipliers cfg id).run w = .ok r w') :
    ∃ state progress, w'.jobs = w.jobs.modify id fun j => { j with state, progress } := by
  obtain ⟨-, amount, hadvance⟩ := runJob_ok h
  obtain ⟨j, recipe, building, hj, -, -, hcases⟩ := advanceJob_ok hadvance
  obtain rfl : j.id = id := Roster.key_of_get? hj
  rcases hcases with ⟨-, rfl⟩ | ⟨-, inputs, w₁, progress, -, hdraw, hfinish⟩ | ⟨-, hfinish⟩
  · exact ⟨.blocked, j.progress, rfl⟩
  · obtain ⟨state, hjobs⟩ := finishJob_jobs hfinish
    rw [forM_removeStock_frame hdraw] at hjobs
    exact ⟨state, progress, hjobs⟩
  · obtain ⟨state, hjobs⟩ := finishJob_jobs hfinish
    exact ⟨state, j.progress, hjobs⟩

theorem runProduction_proceeds {multipliers : MultiplierTable} {cfg : ProductionConfig}
    {summary : ProductionSummary} (hw : w.jobs.Ascending)
    (h : (runProduction multipliers cfg).run w = .ok summary w') :
    List.Forall₂ Proceeds w.jobs w'.jobs := by
  obtain ⟨outcomes, h⟩ := runProduction_ok h
  refine Roster.proceed_of_mapM World.jobs (fun id => id) ?_ ?_ ?_ h
  · rw [List.map_id']
    exact hw.nodup_filter _
  · intro id _ t r t' hrun
    obtain ⟨state, progress, hjobs⟩ := runJob_jobs hrun
    exact ⟨fun j => { j with state, progress }, fun _ => rfl, hjobs⟩
  · intro id hid j hj
    exact Roster.open_of_mem_filter hw (fun _ => Job.not_ended.2) hid hj

theorem Shipment.isDue_iff {tick : Tick} {sh : Shipment} :
    sh.isDue tick ↔ sh.status = .inTransit ∧ sh.etaTick ≤ tick := by
  simp only [isDue, Bool.and_eq_true, decide_eq_true_eq]

theorem deliverShipment_shipments {multipliers : MultiplierTable} {cfg : LogisticsConfig} {sh : Shipment}
    {id : ShipmentId} (h : (deliverShipment multipliers cfg sh).run s = .ok id s') :
    s'.world.shipments = s.world.shipments.modify sh.id fun k => { k with status := .delivered } := by
  obtain ⟨inv, fee, t, -, -, hcharge, rfl⟩ := deliverShipment_ok h
  rcases hcharge with ⟨-, rfl⟩ | ⟨-, hcharge⟩
  · rfl
  · obtain ⟨w₁, hcash, outflow, -, rfl⟩ := Ledger.charge_ok.1 hcharge
    rw [(Ledger.changeCash_moved hcash).frame]
    rfl

theorem advanceShipments_proceeds {tick : Tick} {multipliers : MultiplierTable} {cfg : LogisticsConfig}
    {ids : List ShipmentId} (hs : s.world.shipments.Ascending)
    (h : (advanceShipments tick multipliers cfg).run s = .ok ids s') :
    List.Forall₂ Proceeds s.world.shipments s'.world.shipments := by
  refine Roster.proceed_of_mapM (fun t : Account => t.world.shipments) Shipment.id
    (hs.nodup_filter _) ?_ ?_ (advanceShipments_ok h)
  · intro sh _ t id t' hrun
    exact ⟨fun k => { k with status := .delivered }, fun _ => rfl, deliverShipment_shipments hrun⟩
  · intro sh hsh k hk
    refine Roster.open_of_mem_filter hs (fun k hdue => ?_) (List.mem_map_of_mem hsh) hk
    exact Shipment.not_ended.2 (Shipment.isDue_iff.1 hdue).1

theorem settleContract_contracts {tick : Tick} {id : ContractId} {r : Option ContractDelivery}
    (h : (settleContract tick id).run s = .ok r s') :
    ∃ g, (∀ c, terms (g c) = terms c) ∧ s'.world.contracts = s.world.contracts.modify id g := by
  obtain ⟨c, q, hc, -, ⟨-, rfl⟩ | ⟨-, value, inv, t, -, -, hpay, rfl⟩⟩ := settleContract_ok h
  · refine ⟨fun c => c, fun _ => rfl, ?_⟩
    obtain ⟨before, after, hcontracts, hmodify⟩ := Roster.get?_split hc
    rw [hmodify, ← hcontracts]
  · refine ⟨(·.deliver q), fun _ => rfl, ?_⟩
    rw [payDelivery_frame hpay]
    rfl

theorem settleContracts_proceeds {tick : Tick} {deliveries : List ContractDelivery}
    (hs : s.world.contracts.Ascending) (h : (settleContracts tick).run s = .ok deliveries s') :
    List.Forall₂ Proceeds s.world.contracts s'.world.contracts := by
  obtain ⟨rs, h⟩ := settleContracts_ok h
  refine Roster.proceed_of_mapM (fun t : Account => t.world.contracts) (fun id => id) ?_ ?_ ?_ h
  · rw [List.map_id']
    exact hs.nodup_filter _
  · intro id _ t r t' hrun
    exact settleContract_contracts hrun
  · intro id hid c hc
    exact Roster.open_of_mem_filter hs (fun _ => Contract.not_ended.2) hid hc

theorem runPhases_continues {tick : Tick} {cfg : EngineConfig} {o : TickOutcome}
    (h : (runPhases tick cfg).run s = .ok o s') : s.world.Continues s'.world := by
  obtain ⟨s₁, w₂, w₃, s₄, hbots, hclear, hproduction, hdelivered, hdeliveries⟩ := runPhases_ok h
  have hmoved := supplyBots_moved hbots
  have hcleared := clearMarkets_frame hclear
  have hproduced := runProduction_frame hproduction
  have harrived := advanceShipments_frame hdelivered
  have hsettled := settleContracts_frame hdeliveries
  obtain ⟨w₂', hfills, hfiled⟩ := clearMarkets_ok.1 hclear
  obtain ⟨hnext, -, -⟩ := numbered_of_fills hfills
  have hnext₁ : s₁.world.nextId = s.world.nextId := by rw [hmoved.frame]
  have hnext' : s'.world.nextId = w₂'.nextId := by
    rw [hsettled, harrived, hproduced, World.retainRecentTrades, hfiled]
  -- until its own phase a roster is the one of the beginning, and after it the one of the end
  have horders₁ : s₁.world.orders = s.world.orders := by rw [hmoved.frame]
  have horders' : s'.world.orders = w₂.orders := by
    rw [hsettled, harrived, hproduced, World.retainRecentTrades]
  have hjobs₂ : (w₂.retainRecentTrades tick cfg.health.tradesWindowTicks).jobs = s.world.jobs := by
    rw [World.retainRecentTrades, hcleared, hmoved.frame]
  have hjobs' : s'.world.jobs = w₃.jobs := by rw [hsettled, harrived]
  have hshipments₃ : w₃.shipments = s.world.shipments := by
    rw [hproduced, World.retainRecentTrades, hcleared, hmoved.frame]
  have hshipments' : s'.world.shipments = s₄.world.shipments := by rw [hsettled]
  have hcontracts₄ : s₄.world.contracts = s.world.contracts := by
    rw [harrived, hproduced, World.retainRecentTrades, hcleared, hmoved.frame]
  exact
    { nextId := by
        rw [hnext', ← hnext₁]
        exact hnext
      orders := by
        intro hs
        rw [horders', ← horders₁]
        exact .of_forall₂ (clearMarkets_proceeds (horders₁ ▸ hs.ascending) hclear)
      jobs := by
        intro hs
        rw [hjobs', ← hjobs₂]
        exact .of_forall₂ (runProduction_proceeds (hjobs₂ ▸ hs.ascending) hproduction)
      shipments := by
        intro hs
        rw [hshipments', ← hshipments₃]
        exact .of_forall₂ (advanceShipments_proceeds (hshipments₃ ▸ hs.ascending) hdelivered)
      contracts := by
        intro hs
        rw [← hcontracts₄]
        exact .of_forall₂ (settleContracts_proceeds (hcontracts₄ ▸ hs.ascending) hdeliveries) }

theorem step_continues {cfg : EngineConfig} {r : TickReport × List Trade}
    (h : (step cfg).run w = .ok r w') : w.Continues w' := by
  obtain ⟨tick, before, after, drift, o, t, -, -, hphases, hclock, -, -, -, -⟩ := step_ok h
  obtain ⟨v, -, rfl⟩ := moveClock_ok.1 hclock
  exact { runPhases_continues hphases with }

theorem Operates.continues (h : Operates w w') : w.Continues w' := by
  cases h with
  | command cfg c h => exact Command.continues h
  | tick cfg r h => exact step_continues h

theorem Runs.continues (h : Runs w w') : w.Continues w' := by
  induction h with
  | refl => exact .refl w
  | tail _ hlast ih => exact ih.trans hlast.continues

/-- A tick with what its phases answer. -/
structure Ticks (cfg : EngineConfig) (w : World) (o : TickOutcome) (w' : World) : Prop where
  stepped : ∃ report, (step cfg).run w = .ok (report, o.trades) w'
  phases : ∃ (tick : Tick) (t : Account), tick.toNat = w.clock.currentTick.toNat + 1 ∧
    (runPhases tick cfg).run ⟨w, .zero⟩ = .ok o t

/-- Every tick that succeeds went through its phases. -/
theorem step_ticks {cfg : EngineConfig} {r : TickReport × List Trade} (h : (step cfg).run w = .ok r w') :
    ∃ o, Ticks cfg w o w' := by
  obtain ⟨report, trades⟩ := r
  obtain ⟨tick, before, after, drift, o, t, htick, -, hphases, -, -, -, -, rfl⟩ := step_ok h
  exact ⟨o, ⟨report, h⟩, tick, t, htick, hphases⟩

namespace TickOutcome

variable (o : TickOutcome)

/-- The orders that the trades name. -/
def namedOrders : List OrderId := o.trades.flatMap fun t => [t.buyOrder, t.sellOrder]

/-- The jobs that the summary of production names. -/
def namedJobs : List JobId := o.production.advanced ++ o.production.blocked ++ o.production.completed

/-- The contracts that the deliveries name. -/
def namedContracts : List ContractId := o.deliveries.map (·.contract)

end TickOutcome

/-- What operations in sequence answer, one for one. -/
theorem Action.mapM_answers {σ α β : Type} {R : α → β → Prop} {f : α → Action σ β} {as : List α}
    {bs : List β} {s s' : σ} (hf : ∀ a s b s', (f a).run s = .ok b s' → R a b)
    (h : (as.mapM f).run s = .ok bs s') : List.Forall₂ R as bs := by
  induction as generalizing s bs with
  | nil =>
      obtain ⟨rfl, -⟩ := mapM_nil_ok.1 h
      exact .nil
  | cons a as ih =>
      obtain ⟨b, t, cs, hfirst, hrest, rfl⟩ := mapM_cons_ok.1 h
      exact .cons (hf a s b t hfirst) (ih hrest)

theorem World.order_of_mem_matchList {m : MarketKey × Fill} (hm : m ∈ w.matchList) {i : OrderId}
    (hi : i = m.2.buyOrder ∨ i = m.2.sellOrder) : ∃ o ∈ w.orders, o.id = i ∧ ¬ ended o := by
  obtain ⟨e, he, hm⟩ := List.mem_flatMap.1 hm
  obtain ⟨f, hf, rfl⟩ := List.mem_map.1 hm
  rw [World.mem_books he] at hf
  obtain ⟨bid, hbid, ask, hask, q, -, rfl⟩ := Book.pairs_of_mem_fills hf
  obtain ⟨b, hb, rfl, -, -, hbidOpen⟩ := World.order_of_mem_quotes hbid
  obtain ⟨a, ha, rfl, -, -, haskOpen⟩ := World.order_of_mem_quotes hask
  rcases hi with rfl | rfl
  · exact ⟨b, hb, rfl, Order.not_ended.2 (Order.status_of_isOpen hbidOpen)⟩
  · exact ⟨a, ha, rfl, Order.not_ended.2 (Order.status_of_isOpen haskOpen)⟩

theorem clearMarkets_names {tick : Tick} {trades : List Trade}
    (h : (clearMarkets tick).run w = .ok trades w') {t : Trade} (ht : t ∈ trades) {i : OrderId}
    (hi : i = t.buyOrder ∨ i = t.sellOrder) : ∃ o ∈ w.orders, o.id = i ∧ ¬ ended o := by
  obtain ⟨w₁, hfills, -⟩ := clearMarkets_ok.1 h
  obtain ⟨m, hm, _, rfl⟩ := (fills_recorded hfills).exists_of_mem ht
  exact World.order_of_mem_matchList hm hi

theorem runProduction_names {multipliers : MultiplierTable} {cfg : ProductionConfig}
    {summary : ProductionSummary} (h : (runProduction multipliers cfg).run w = .ok summary w') {i : JobId}
    (hi : i ∈ summary.advanced ++ summary.blocked ++ summary.completed) :
    ∃ j ∈ w.jobs, j.id = i ∧ ¬ ended j := by
  simp only [runProduction, Action.bind_ok, Action.get_ok, Action.pure_ok] at h
  obtain ⟨_, w, ⟨rfl, rfl⟩, outcomes, _, houtcomes, rfl, rfl⟩ := h
  have hanswers := Action.mapM_answers (R := fun id r => r.1 = id)
    (fun id _ r _ hrun => (runJob_ok hrun).1) houtcomes
  have hids : outcomes.map (·.1) = w.activeJobs := by
    rw [← List.forall₂_eq_eq_eq, List.forall₂_map_left_iff]
    exact hanswers.flip
  have hmem : i ∈ outcomes.map (·.1) := by
    simp only [List.mem_append, List.mem_map, List.mem_filter] at hi
    rcases hi with (⟨r, hr, rfl⟩ | ⟨r, hr, rfl⟩) | ⟨r, hr, rfl⟩ <;> exact List.mem_map_of_mem hr.1
  rw [hids] at hmem
  obtain ⟨j, hj, rfl⟩ := List.mem_map.1 hmem
  obtain ⟨hmem, hactive⟩ := List.mem_filter.1 hj
  exact ⟨j, hmem, rfl, Job.not_ended.2 hactive⟩

theorem deliverShipment_id {multipliers : MultiplierTable} {cfg : LogisticsConfig} {sh : Shipment}
    {id : ShipmentId} (h : (deliverShipment multipliers cfg sh).run s = .ok id s') : id = sh.id := by
  simp only [deliverShipment, Action.bind_ok] at h
  obtain ⟨_, _, -, fee, _, -, h⟩ := h
  split at h
  · simp only [Action.bind_ok, Action.pure_ok] at h
    obtain ⟨_, _, -, _, _, -, rfl, -⟩ := h
    rfl
  · simp only [Action.bind_ok, Action.pure_ok] at h
    obtain ⟨_, _, -, rfl, -⟩ := h
    rfl

/-- The answer to the arrivals is the list of what was due. -/
theorem advanceShipments_ids {tick : Tick} {multipliers : MultiplierTable} {cfg : LogisticsConfig}
    {ids : List ShipmentId} (h : (advanceShipments tick multipliers cfg).run s = .ok ids s') :
    ids = (s.world.shipments.filter (·.isDue tick)).map (·.id) := by
  have hanswers := Action.mapM_answers (R := fun sh id => sh.id = id)
    (fun sh _ id _ hrun => (deliverShipment_id hrun).symm) (advanceShipments_ok h)
  rw [← List.forall₂_map_left_iff, List.forall₂_eq_eq_eq] at hanswers
  exact hanswers.symm

theorem settleContract_names {tick : Tick} {id : ContractId} {r : Option ContractDelivery}
    (h : (settleContract tick id).run s = .ok r s') : ∀ d ∈ r, d.contract = id := by
  obtain ⟨c, q, -, -, ⟨-, rfl⟩ | ⟨-, value, inv, t, -, -, -, -, rfl⟩⟩ := settleContract_answer h
  · intro d hd
    cases hd
  · intro d hd
    rw [← Option.mem_some.1 hd]

theorem settleContracts_names {tick : Tick} {deliveries : List ContractDelivery}
    (h : (settleContracts tick).run s = .ok deliveries s') {i : ContractId}
    (hi : i ∈ deliveries.map (·.contract)) : ∃ c ∈ s.world.contracts, c.id = i ∧ ¬ ended c := by
  obtain ⟨rs, hrs, rfl⟩ := settleContracts_answer h
  have hanswers := Action.mapM_answers (R := fun id r => ∀ d ∈ r, d.contract = id)
    (fun id _ r _ hrun => settleContract_names hrun) hrs
  obtain ⟨d, hd, rfl⟩ := List.mem_map.1 hi
  obtain ⟨r, hr, hsome⟩ := List.mem_filterMap.1 hd
  obtain ⟨id, hid, hnames⟩ := exists_of_forall₂_mem hanswers.flip hr
  obtain ⟨c, hc, rfl⟩ := List.mem_map.1 hid
  obtain ⟨hmem, hopen⟩ := List.mem_filter.1 hc
  exact ⟨c, hmem, (hnames d hsome).symm, Contract.not_ended.2 hopen⟩

/-- A tick names what was open when it began. -/
structure TickOutcome.Names (o : TickOutcome) (w : World) : Prop where
  orders : ∀ i ∈ o.namedOrders, ∃ a ∈ w.orders, a.id = i ∧ ¬ ended a
  jobs : ∀ i ∈ o.namedJobs, ∃ j ∈ w.jobs, j.id = i ∧ ¬ ended j
  shipments : ∀ i ∈ o.delivered, ∃ sh ∈ w.shipments, sh.id = i ∧ ¬ ended sh
  contracts : ∀ i ∈ o.namedContracts, ∃ c ∈ w.contracts, c.id = i ∧ ¬ ended c

theorem runPhases_names {tick : Tick} {cfg : EngineConfig} {o : TickOutcome}
    (h : (runPhases tick cfg).run s = .ok o s') : o.Names s.world := by
  obtain ⟨s₁, w₂, w₃, s₄, hbots, hclear, hproduction, hdelivered, hdeliveries⟩ := runPhases_ok h
  have hmoved := supplyBots_moved hbots
  have hcleared := clearMarkets_frame hclear
  have hproduced := runProduction_frame hproduction
  have harrived := advanceShipments_frame hdelivered
  exact
    { orders := by
        intro i hi
        obtain ⟨t, ht, hi⟩ := List.mem_flatMap.1 hi
        have hopen := clearMarkets_names hclear ht (i := i) (by simpa using hi)
        rw [hmoved.frame] at hopen
        exact hopen
      jobs := by
        intro i hi
        have hopen := runProduction_names hproduction hi
        rw [World.retainRecentTrades, hcleared, hmoved.frame] at hopen
        exact hopen
      shipments := by
        intro i hi
        rw [advanceShipments_ids hdelivered, hproduced, World.retainRecentTrades, hcleared,
          hmoved.frame] at hi
        obtain ⟨sh, hsh, rfl⟩ := List.mem_map.1 hi
        obtain ⟨hmem, hdue⟩ := List.mem_filter.1 hsh
        exact ⟨sh, hmem, rfl, Shipment.not_ended.2 (Shipment.isDue_iff.1 hdue).1⟩
      contracts := by
        intro i hi
        have hopen := settleContracts_names hdeliveries hi
        rw [harrived, hproduced, World.retainRecentTrades, hcleared, hmoved.frame] at hopen
        exact hopen }

theorem Ticks.names {cfg : EngineConfig} {o : TickOutcome} (h : Ticks cfg w o w') : o.Names w := by
  obtain ⟨-, tick, t, -, hphases⟩ := h
  exact runPhases_names hphases

/-- The rosters of what has a life are in order. -/
structure World.Listed (w : World) : Prop where
  orders : UpTo w.nextId w.orders
  jobs : UpTo w.nextId w.jobs
  shipments : UpTo w.nextId w.shipments
  contracts : UpTo w.nextId w.contracts

theorem World.Numbered.listed (hw : w.Numbered w.nextId) : w.Listed :=
  ⟨hw.orders, hw.jobs, hw.shipments, hw.contracts⟩

theorem World.Continues.listed (h : w.Continues w') (hw : w.Listed) : w'.Listed where
  orders := (h.orders hw.orders).upTo h.nextId hw.orders
  jobs := (h.jobs hw.jobs).upTo h.nextId hw.jobs
  shipments := (h.shipments hw.shipments).upTo h.nextId hw.shipments
  contracts := (h.contracts hw.contracts).upTo h.nextId hw.contracts

/-- What has ended never changes again: from any state of a run on, it is under its identifier as it was,
and no tick names it. -/
theorem finished_forever {w v u : World} (hw : w.Numbered w.nextId) (hv : Runs w v) (hu : Runs v u) :
    (∀ o ∈ v.orders, o.status = .filled ∨ o.status = .cancelled → u.orders.Settled o ∧
      ∀ cfg outcome u', Ticks cfg u outcome u' → o.id ∉ outcome.namedOrders) ∧
    (∀ j ∈ v.jobs, j.state = .completed ∨ j.state = .cancelled → u.jobs.Settled j ∧
      ∀ cfg outcome u', Ticks cfg u outcome u' → j.id ∉ outcome.namedJobs) ∧
    (∀ sh ∈ v.shipments, sh.status = .delivered ∨ sh.status = .cancelled → u.shipments.Settled sh ∧
      ∀ cfg outcome u', Ticks cfg u outcome u' → sh.id ∉ outcome.delivered) ∧
    (∀ c ∈ v.contracts, c.status = .fulfilled ∨ c.status = .cancelled → u.contracts.Settled c ∧
      ∀ cfg outcome u', Ticks cfg u outcome u' → c.id ∉ outcome.namedContracts) := by
  have hlisted := hv.continues.listed hw.listed
  have hlater := hu.continues
  refine ⟨fun o ho hend => ?_, fun j hj hend => ?_, fun sh hsh hend => ?_, fun c hc hend => ?_⟩
  · have hended := Order.ended_iff.2 hend
    have hsettled := (hlater.orders hlisted.orders).settled hlater.nextId hlisted.orders ho hended
    exact ⟨hsettled, fun cfg outcome u' htick => hsettled.not_mem hended htick.names.orders⟩
  · have hended := Job.ended_iff.2 hend
    have hsettled := (hlater.jobs hlisted.jobs).settled hlater.nextId hlisted.jobs hj hended
    exact ⟨hsettled, fun cfg outcome u' htick => hsettled.not_mem hended htick.names.jobs⟩
  · have hended := Shipment.ended_iff.2 hend
    have hsettled := (hlater.shipments hlisted.shipments).settled hlater.nextId hlisted.shipments hsh hended
    exact ⟨hsettled, fun cfg outcome u' htick => hsettled.not_mem hended htick.names.shipments⟩
  · have hended := Contract.ended_iff.2 hend
    have hsettled := (hlater.contracts hlisted.contracts).settled hlater.nextId hlisted.contracts hc hended
    exact ⟨hsettled, fun cfg outcome u' htick => hsettled.not_mem hended htick.names.contracts⟩

/-- A tick of the busy world ends an order, the job, the shipment and a contract. The mine ships more ore
after that, and the next tick delivers it, but names none of the four. -/
theorem finished_forever_busy : busyWorld.Numbered busyWorld.nextId ∧
    ∃ v u u' outcome, Runs busyWorld v ∧ Runs v u ∧ Ticks busyConfig u outcome u' ∧
      (∃ o ∈ v.orders, o.id = ⟨11⟩ ∧ o.status = .filled ∧ u.orders.Settled o ∧
        o.id ∉ outcome.namedOrders) ∧
      (∃ j ∈ v.jobs, j.id = ⟨9⟩ ∧ j.state = .completed ∧ u.jobs.Settled j ∧ j.id ∉ outcome.namedJobs) ∧
      (∃ sh ∈ v.shipments, sh.id = ⟨12⟩ ∧ sh.status = .delivered ∧ u.shipments.Settled sh ∧
        sh.id ∉ outcome.delivered) ∧
      ∃ c ∈ v.contracts, c.id = ⟨13⟩ ∧ c.status = .fulfilled ∧ u.contracts.Settled c ∧
        c.id ∉ outcome.namedContracts := by
  have hnumbered : busyWorld.Numbered busyWorld.nextId := by
    constructor <;> exact ⟨by decide +kernel, by decide +kernel⟩
  have hended : ((step busyConfig).outcome busyWorld).map (fun r =>
      ((r.2.orders.get? ⟨11⟩).map (·.status), (r.2.jobs.get? ⟨9⟩).map (·.state),
        (r.2.shipments.get? ⟨12⟩).map (·.status), (r.2.contracts.get? ⟨13⟩).map (·.status))) =
      .ok (some .filled, some .completed, some .delivered, some .fulfilled) := by decide +kernel
  have hrun : ((step busyConfig >>= fun _ => (Command.createShipment
      ⟨⟨6⟩, ⟨1⟩, ⟨2⟩, ⟨3⟩, 1, 1⟩).act busyConfig >>= fun _ => step busyConfig).outcome busyWorld).isOk := by
    decide +kernel
  obtain ⟨_, u', hrun⟩ := Action.ok_of_outcome_isOk hrun
  obtain ⟨r, v, htick, hrun⟩ := Action.bind_ok.1 hrun
  obtain ⟨_, u, hship, hlast⟩ := Action.bind_ok.1 hrun
  obtain ⟨outcome, houtcome⟩ := step_ticks hlast
  rw [Action.outcome_ok.2 htick] at hended
  simp only [Except.map, Except.ok.injEq, Prod.mk.injEq, Option.map_eq_some_iff] at hended
  obtain ⟨⟨o, ho, hfilled⟩, ⟨j, hj, hcompleted⟩, ⟨sh, hsh, hdelivered⟩, c, hc, hfulfilled⟩ := hended
  have hv : Runs busyWorld v := .single (.tick busyConfig r htick)
  have hu : Runs v u := .single (.command busyConfig _ hship)
  obtain ⟨horders, hjobs, hshipments, hcontracts⟩ := finished_forever hnumbered hv hu
  refine ⟨hnumbered, v, u, u', outcome, hv, hu, houtcome, ?_, ?_, ?_, ?_⟩
  · obtain ⟨hsettled, hnever⟩ := horders o (Roster.mem_of_get? ho) (Or.inl hfilled)
    exact ⟨o, Roster.mem_of_get? ho, Roster.key_of_get? ho, hfilled, hsettled, hnever _ _ _ houtcome⟩
  · obtain ⟨hsettled, hnever⟩ := hjobs j (Roster.mem_of_get? hj) (Or.inl hcompleted)
    exact ⟨j, Roster.mem_of_get? hj, Roster.key_of_get? hj, hcompleted, hsettled, hnever _ _ _ houtcome⟩
  · obtain ⟨hsettled, hnever⟩ := hshipments sh (Roster.mem_of_get? hsh) (Or.inl hdelivered)
    exact ⟨sh, Roster.mem_of_get? hsh, Roster.key_of_get? hsh, hdelivered, hsettled, hnever _ _ _ houtcome⟩
  · obtain ⟨hsettled, hnever⟩ := hcontracts c (Roster.mem_of_get? hc) (Or.inl hfulfilled)
    exact ⟨c, Roster.mem_of_get? hc, Roster.key_of_get? hc, hfulfilled, hsettled, hnever _ _ _ houtcome⟩

end Mercantile
