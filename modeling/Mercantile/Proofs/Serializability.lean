import Mathlib.Logic.Function.Basic
import Mercantile.Proofs.Commits

/-!
Clients around one store in memory. Each reads the world, works a request out on what it read and commits
the plan, and the operations of all of them come in any order. The commits that were accepted lead from the
first world to the stored one as if they had been carried out one after another (`Leads`), because a lock
version never comes back: what a client holds is the stored world or has a smaller one (`Consistent`).
-/

namespace Mercantile

/-- What a client holds: nothing yet, a snapshot, or the plan of a request with its snapshot. -/
inductive Hand
  | empty
  | snapshot (w : World)
  | plan (w : World) (r : Request) (p : Plan)

def Hand.snapshot? : Hand → Option World
  | .empty => none
  | .snapshot w => some w
  | .plan w _ _ => some w

/-- An accepted commit: the settings of the client, its request and what was stored. -/
structure Commit where
  config : EngineConfig
  request : Request
  plan : Plan

/-- A store, what its clients hold, and the commits accepted so far. -/
structure Clients (κ : Type) where
  store : MemoryStore
  hand : κ → Hand
  log : List Commit

/-- One operation of one client. -/
inductive Event (κ : Type)
  | read (k : κ)
  | plan (k : κ) (r : Request)
  | commit (k : κ)
  /-- The operation fails before it gets to the store. -/
  | fail (k : κ) (e : Failure)

namespace Clients

variable {κ : Type} [DecidableEq κ]

def new (store : MemoryStore) : Clients κ := ⟨store, fun _ => .empty, []⟩

def engine (s : Clients κ) (cfg : EngineConfig) : Simulation MemoryStore := ⟨s.store, cfg⟩

def give (s : Clients κ) (k : κ) (h : Hand) : Clients κ := { s with hand := Function.update s.hand k h }

/-- Carries out an operation at the settings of its client. A client without a snapshot works nothing out,
and one without a plan commits nothing; a plan stays in hand after its commit. -/
def act (cfg : κ → EngineConfig) : Event κ → Action (Clients κ) Unit
  | .read k => do
    let w ← Action.observe fun s => (s.engine (cfg k)).snapshot
    modify (·.give k (.snapshot w))
  | .plan k r => do
    if let some w := ((← get).hand k).snapshot? then
      let p ← r.plan (cfg k) w
      modify (·.give k (.plan w r p))
  | .commit k => do
    if let .plan _ r p := (← get).hand k then
      Action.zoom (·.engine (cfg k)) (fun e s => { s with store := e.store }) p.commit
      modify fun s => { s with log := s.log ++ [⟨cfg k, r, p⟩] }
  | .fail _ e => throw e

/-- What an operation leaves, whether it succeeds or not. -/
def after (cfg : κ → EngineConfig) (s : Clients κ) (e : Event κ) : Clients κ :=
  match (act cfg e).run s with
  | .ok _ t => t
  | .error _ t => t

def run (cfg : κ → EngineConfig) (s : Clients κ) (events : List (Event κ)) : Clients κ :=
  events.foldl (after cfg) s

variable {cfg : κ → EngineConfig} {s t : Clients κ} {w : World}

theorem act_read (hw : s.store.world = some w) (k : κ) :
    (act cfg (.read k)).run s = .ok () (s.give k (.snapshot w)) := by
  refine Action.bind_ok.2 ⟨w, s, Action.observe_ok.2 ⟨?_, rfl⟩, Action.modify_ok.2 rfl⟩
  obtain ⟨⟨world, history⟩, hand, log⟩ := s
  cases hw
  rfl

theorem act_plan_idle {k : κ} {r : Request} (hk : (s.hand k).snapshot? = none) :
    (act cfg (.plan k r)).run s = .ok () s := by
  refine Action.bind_ok.2 ⟨s, s, Action.get_ok.2 ⟨rfl, rfl⟩, ?_⟩
  rw [hk]
  rfl

theorem act_plan_ok {k : κ} {r : Request} {v : World} {p : Plan} (hk : (s.hand k).snapshot? = some v)
    (hp : r.plan (cfg k) v = .ok p) : (act cfg (.plan k r)).run s = .ok () (s.give k (.plan v r p)) := by
  refine Action.bind_ok.2 ⟨s, s, Action.get_ok.2 ⟨rfl, rfl⟩, ?_⟩
  rw [hk]
  exact Action.bind_ok.2 ⟨p, s, Action.lift_ok.2 ⟨hp, rfl⟩, Action.modify_ok.2 rfl⟩

theorem act_plan_error {k : κ} {r : Request} {v : World} {e : Failure}
    (hk : (s.hand k).snapshot? = some v) (hp : r.plan (cfg k) v = .error e) :
    (act cfg (.plan k r)).run s = .error e s := by
  refine Action.bind_error.2 (.inr ⟨s, s, Action.get_ok.2 ⟨rfl, rfl⟩, ?_⟩)
  rw [hk]
  exact Action.bind_error.2 (.inl (Action.lift_error.2 ⟨hp, rfl⟩))

theorem act_commit_idle {k : κ} (hk : ∀ v r p, s.hand k ≠ .plan v r p) :
    (act cfg (.commit k)).run s = .ok () s := by
  refine Action.bind_ok.2 ⟨s, s, Action.get_ok.2 ⟨rfl, rfl⟩, ?_⟩
  cases hhand : s.hand k with
  | empty => rfl
  | snapshot v => rfl
  | plan v r p => exact absurd hhand (hk v r p)

theorem act_commit_ok {k : κ} {r : Request} {v : World} {p : Plan} (hw : s.store.world = some w)
    (hk : s.hand k = .plan v r p) (hp : p.On v) (hv : w.clock.lockVersion = v.clock.lockVersion) :
    (act cfg (.commit k)).run s = .ok () { s with
      store := ⟨some p.next, s.store.history ++ p.trades⟩, log := s.log ++ [⟨cfg k, r, p⟩] } := by
  have hcommit := hp.commit_memory hw (cfg k)
  rw [hp.expected, if_pos hv] at hcommit
  refine Action.bind_ok.2 ⟨s, s, Action.get_ok.2 ⟨rfl, rfl⟩, ?_⟩
  rw [hk]
  exact Action.bind_ok.2 ⟨(), _, Action.zoom_ok.2 ⟨_, hcommit, rfl⟩, Action.modify_ok.2 rfl⟩

theorem act_commit_error {k : κ} {r : Request} {v : World} {p : Plan} (hw : s.store.world = some w)
    (hk : s.hand k = .plan v r p) (hp : p.On v) (hv : w.clock.lockVersion ≠ v.clock.lockVersion) :
    (act cfg (.commit k)).run s =
      .error (.concurrentModification v.clock.lockVersion w.clock.lockVersion) s := by
  have hcommit := hp.commit_memory hw (cfg k)
  rw [hp.expected, if_neg hv] at hcommit
  refine Action.bind_error.2 (.inr ⟨s, s, Action.get_ok.2 ⟨rfl, rfl⟩, ?_⟩)
  rw [hk]
  exact Action.bind_error.2 (.inl (Action.zoom_error.2 ⟨_, hcommit, rfl⟩))

/-- An operation that fails changes nothing, whatever the reason. -/
theorem act_error {e : Event κ} {f : Failure} (h : (act cfg e).run s = .error f t) : t = s := by
  cases e with
  | read k =>
      rcases Action.bind_error.1 h with hread | ⟨w, u, -, hgive⟩
      · exact (Action.observe_error.1 hread).2
      · cases hgive
  | plan k r =>
      rcases Action.bind_error.1 h with hget | ⟨_, _, hget, hbody⟩
      · cases hget
      · obtain ⟨rfl, rfl⟩ := Action.get_ok.1 hget
        split at hbody
        · rcases Action.bind_error.1 hbody with hplan | ⟨p, u, -, hgive⟩
          · exact (Action.lift_error.1 hplan).2
          · cases hgive
        · cases hbody
  | commit k =>
      rcases Action.bind_error.1 h with hget | ⟨_, _, hget, hbody⟩
      · cases hget
      · obtain ⟨rfl, rfl⟩ := Action.get_ok.1 hget
        split at hbody
        · rcases Action.bind_error.1 hbody with hzoom | ⟨_, u, -, hlog⟩
          · obtain ⟨engine, hcommit, rfl⟩ := Action.zoom_error.1 hzoom
            rw [Plan.commit_error hcommit]
            rfl
          · cases hlog
        · cases hbody
  | fail k e =>
      cases h
      rfl

theorem after_ok {e : Event κ} (h : (act cfg e).run s = .ok () t) : after cfg s e = t := by
  rw [after, h]

theorem after_error {e : Event κ} {f : Failure} (h : (act cfg e).run s = .error f t) :
    after cfg s e = s := by
  rw [after, h]
  exact act_error h

end Clients

/-- The commits were accepted one after another, each planned on the world that the one before it left. -/
inductive Leads : World → List Commit → World → Prop
  | nil (w : World) : Leads w [] w
  | cons {w w' : World} {c : Commit} {cs : List Commit} :
      c.request.plan c.config w = .ok c.plan → Leads c.plan.next cs w' → Leads w (c :: cs) w'

namespace Leads

variable {w w₁ w' : World} {c : Commit} {cs cs' : List Commit}

theorem append (h : Leads w cs w₁) (h' : Leads w₁ cs' w') : Leads w (cs ++ cs') w' := by
  induction h with
  | nil => exact h'
  | cons hplan _ ih => exact .cons hplan (ih h')

theorem single (h : c.request.plan c.config w = .ok c.plan) : Leads w [c] c.plan.next :=
  .cons h (.nil _)

theorem version (h : Leads w cs w') :
    w'.clock.lockVersion.toNat = w.clock.lockVersion.toNat + cs.countP (·.plan.isCommand) +
      (cs.map (·.plan.ticks)).sum := by
  induction h with
  | nil => rfl
  | @cons w w' c cs hplan _ ih =>
      have hversion := (Request.plan_on hplan).version
      rw [List.countP_cons, List.map_cons, List.sum_cons]
      omega

/-- A world that has been replaced is older than any that comes later. -/
theorem version_lt (h : Leads w cs w') (hne : cs ≠ []) : w.clock.lockVersion < w'.clock.lockVersion := by
  cases h with
  | nil => exact absurd rfl hne
  | cons hplan hrest =>
      have hfirst := (Request.plan_on hplan).version_lt
      have hlast := hrest.version
      rw [UInt64.lt_iff_toNat_lt] at hfirst ⊢
      omega

end Leads

namespace Clients

variable {κ : Type} {cfg : κ → EngineConfig} {s t u : Clients κ} {w w' w'' : World}

/-- `w` is stored; what a client holds is `w` or has a smaller lock version, and a plan that it holds is
one on the snapshot beside it. -/
structure Consistent (cfg : κ → EngineConfig) (s : Clients κ) (w : World) : Prop where
  stored : s.store.world = some w
  held : ∀ k v, (s.hand k).snapshot? = some v → v = w ∨ v.clock.lockVersion < w.clock.lockVersion
  planned : ∀ k v r p, s.hand k = .plan v r p → r.plan (cfg k) v = .ok p

/-- From `s`, where `w` is stored, to `t`, where `w'` is, commits were accepted in the order of the log. -/
structure Extends (s : Clients κ) (w : World) (cs : List Commit) (t : Clients κ) (w' : World) : Prop where
  leads : Leads w cs w'
  log : t.log = s.log ++ cs
  history : t.store.history = s.store.history ++ cs.flatMap (·.plan.trades)

theorem Extends.none (hlog : t.log = s.log) (hhistory : t.store.history = s.store.history) :
    s.Extends w [] t w := by
  refine ⟨.nil w, ?_, ?_⟩
  · rw [hlog, List.append_nil]
  · rw [hhistory, List.flatMap_nil, List.append_nil]

theorem Extends.trans {cs cs' : List Commit} (h : s.Extends w cs t w') (h' : t.Extends w' cs' u w'') :
    s.Extends w (cs ++ cs') u w'' := by
  refine ⟨h.leads.append h'.leads, ?_, ?_⟩
  · rw [h'.log, h.log, List.append_assoc]
  · rw [h'.history, h.history, List.flatMap_append, List.append_assoc]

theorem Consistent.new (w : World) (history : List Trade) :
    Consistent cfg (Clients.new ⟨some w, history⟩) w := by
  refine ⟨rfl, fun k v hv => ?_, fun k v r p hp => ?_⟩
  · cases hv
  · cases hp

/-- An accepted commit makes every snapshot of before an older one. -/
theorem Consistent.commit (h : s.Consistent cfg w) {c : Commit}
    (hc : c.request.plan c.config w = .ok c.plan) :
    ({ s with store := ⟨some c.plan.next, s.store.history ++ c.plan.trades⟩, log := s.log ++ [c] } :
      Clients κ).Consistent cfg c.plan.next := by
  have hlt := (Request.plan_on hc).version_lt
  refine ⟨rfl, fun k v hv => Or.inr ?_, h.planned⟩
  rcases h.held k v hv with rfl | hold
  · exact hlt
  · exact UInt64.lt_trans hold hlt

theorem Consistent.version_eq_iff (h : s.Consistent cfg w) {k : κ} {v : World} {r : Request} {p : Plan}
    (hk : s.hand k = .plan v r p) : w.clock.lockVersion = v.clock.lockVersion ↔ v = w := by
  refine ⟨fun hv => ?_, fun hv => by rw [hv]⟩
  rcases h.held k v (by rw [hk]; rfl) with rfl | hold
  · rfl
  · exact absurd hold (hv ▸ UInt64.lt_irrefl _)

variable [DecidableEq κ]

/-- What is put into a hand has to be the stored world, or a plan on what was in the hand before. -/
theorem Consistent.give (h : s.Consistent cfg w) {k : κ} {hand : Hand}
    (hheld : ∀ v, hand.snapshot? = some v → v = w ∨ v.clock.lockVersion < w.clock.lockVersion)
    (hplanned : ∀ v r p, hand = .plan v r p → r.plan (cfg k) v = .ok p) :
    (s.give k hand).Consistent cfg w := by
  have hother : ∀ i, (s.give k hand).hand i = if i = k then hand else s.hand i := fun i =>
    Function.update_apply s.hand k hand i
  refine ⟨h.stored, fun i v hi => ?_, fun i v r p hi => ?_⟩
  · rw [hother] at hi
    split at hi
    · exact hheld v hi
    · exact h.held i v hi
  · rw [hother] at hi
    split at hi
    · next heq => exact heq ▸ hplanned v r p hi
    · exact h.planned i v r p hi

/-- One operation accepts one commit, on the stored world, or none. -/
theorem Consistent.after (h : s.Consistent cfg w) (e : Event κ) :
    ∃ cs w', (s.after cfg e).Consistent cfg w' ∧ s.Extends w cs (s.after cfg e) w' := by
  cases e with
  | read k =>
      rw [after_ok (act_read h.stored k)]
      refine ⟨[], w, h.give ?_ ?_, .none rfl rfl⟩
      · rintro v ⟨⟩
        exact Or.inl rfl
      · rintro v r p hp
        cases hp
  | plan k r =>
      cases hk : (s.hand k).snapshot? with
      | none =>
          rw [after_ok (act_plan_idle hk)]
          exact ⟨[], w, h, .none rfl rfl⟩
      | some v =>
          cases hp : r.plan (cfg k) v with
          | error f =>
              rw [after_error (act_plan_error hk hp)]
              exact ⟨[], w, h, .none rfl rfl⟩
          | ok p =>
              rw [after_ok (act_plan_ok hk hp)]
              refine ⟨[], w, h.give ?_ ?_, .none rfl rfl⟩
              · rintro v' ⟨⟩
                exact h.held k v hk
              · rintro v' r' p' ⟨⟩
                exact hp
  | commit k =>
      cases hk : s.hand k with
      | empty =>
          rw [after_ok (act_commit_idle fun v r p => by rw [hk]; nofun)]
          exact ⟨[], w, h, .none rfl rfl⟩
      | snapshot v =>
          rw [after_ok (act_commit_idle fun v r p => by rw [hk]; nofun)]
          exact ⟨[], w, h, .none rfl rfl⟩
      | plan v r p =>
          have hp := h.planned k v r p hk
          by_cases hv : w.clock.lockVersion = v.clock.lockVersion
          · rw [after_ok (act_commit_ok h.stored hk (Request.plan_on hp) hv)]
            obtain rfl := (h.version_eq_iff hk).1 hv
            have hc : (⟨cfg k, r, p⟩ : Commit).request.plan (cfg k) v = .ok p := hp
            refine ⟨[⟨cfg k, r, p⟩], p.next, h.commit hc, ⟨.single hc, rfl, ?_⟩⟩
            rw [List.flatMap_singleton]
          · rw [after_error (act_commit_error h.stored hk (Request.plan_on hp) hv)]
            exact ⟨[], w, h, .none rfl rfl⟩
  | fail k f =>
      rw [after_error (f := f) rfl]
      exact ⟨[], w, h, .none rfl rfl⟩

/-- A schedule accepts commits that lead from the world stored before it to the one stored after it. -/
theorem Consistent.run (h : s.Consistent cfg w) (events : List (Event κ)) :
    ∃ cs w', (s.run cfg events).Consistent cfg w' ∧ s.Extends w cs (s.run cfg events) w' := by
  induction events generalizing s w with
  | nil => exact ⟨[], w, h, .none rfl rfl⟩
  | cons e events ih =>
      obtain ⟨cs, w₁, hfirst, hextends⟩ := h.after e
      obtain ⟨cs', w', hlast, hextends'⟩ := ih hfirst
      exact ⟨cs ++ cs', w', hlast, hextends.trans hextends'⟩

end Clients

end Mercantile
