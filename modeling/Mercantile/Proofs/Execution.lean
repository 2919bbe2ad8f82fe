import Mercantile.Action
import Mercantile.Ledger

/-!
Executions, taken apart. An operation that was put together with `do` succeeded exactly if its parts did,
one after the other, and the lemmas `…_ok` name the answers and the states in between. A list of operations
keeps what each of them keeps (`mapM_keeps`, `forM_keeps`). An operation fails for no other causes than its
parts do (`Action.FailsOnly`), where each part is looked at in the states that the parts before it can
leave. Where it matters what a failure leaves behind, `Action.Keeps` follows successes and failures at once.
-/

namespace Mercantile

theorem orFail_ok {α : Type} {x : Option α} {e : Failure} {a : α} :
    orFail x e = .ok a ↔ x = some a := by
  cases x <;> simp [orFail]

theorem orFail_error {α : Type} {x : Option α} {e e' : Failure} :
    orFail x e = .error e' ↔ x = none ∧ e' = e := by
  cases x <;> simp [orFail, eq_comm]

namespace Check

variable {ε α β : Type}

theorem bind_ok {x : Except ε α} {f : α → Except ε β} {b : β} :
    (x >>= f) = .ok b ↔ ∃ a, x = .ok a ∧ f a = .ok b := by
  cases x <;> simp [bind, Except.bind]

theorem bind_error {x : Except ε α} {f : α → Except ε β} {e : ε} :
    (x >>= f) = .error e ↔ x = .error e ∨ ∃ a, x = .ok a ∧ f a = .error e := by
  cases x <;> simp [bind, Except.bind]

theorem pure_ok {a b : α} : (pure a : Except ε α) = .ok b ↔ b = a := by
  simp [pure, Except.pure, eq_comm]

theorem map_ok {x : Except ε α} {f : α → β} {b : β} :
    (f <$> x) = .ok b ↔ ∃ a, x = .ok a ∧ b = f a := by
  cases x <;> simp [Functor.map, Except.map, eq_comm]

theorem map_error {x : Except ε α} {f : α → β} {e : ε} : (f <$> x) = .error e ↔ x = .error e := by
  cases x <;> simp [Functor.map, Except.map]

/-- A guard is passed by what it does not refuse. -/
theorem guard_ok {c : Prop} [Decidable c] {e : ε} {u : Unit} :
    (if c then throw e else pure () : Except ε Unit) = .ok u ↔ ¬ c := by
  by_cases hc : c <;> simp [hc, throw, throwThe, MonadExceptOf.throw, pure, Except.pure]

/-- What follows a refusal is reached exactly where the refusal is not. -/
theorem unless_ok {c : Prop} [Decidable c] {e : ε} {f : α → Except ε β} {x : Except ε β} {b : β} :
    (if c then (throw e : Except ε α) >>= f else x) = .ok b ↔ ¬ c ∧ x = .ok b := by
  by_cases hc : c <;> simp [hc, throw, throwThe, MonadExceptOf.throw, bind, Except.bind]

theorem unless_error {c : Prop} [Decidable c] {e e' : ε} {f : α → Except ε β} {x : Except ε β} :
    (if c then (throw e : Except ε α) >>= f else x) = .error e' ↔ c ∧ e' = e ∨ ¬ c ∧ x = .error e' := by
  by_cases hc : c <;> simp [hc, throw, throwThe, MonadExceptOf.throw, bind, Except.bind, eq_comm]

theorem pure_error {a : α} {e : ε} : (pure a : Except ε α) ≠ .error e := nofun

theorem refuse_ok {c : Prop} [Decidable c] {e : ε} {f : α → Except ε β} {x : Except ε β} {b : β} :
    (if c then (Except.error e : Except ε α) >>= f else x) = .ok b ↔ ¬ c ∧ x = .ok b :=
  unless_ok

/-- A check that does nothing but refuse. -/
theorem bound_ok {c : Prop} [Decidable c] {e : ε} {a b : α} :
    (if c then Except.error e else Except.ok a) = .ok b ↔ ¬ c ∧ b = a := by
  by_cases hc : c <;> simp [hc, eq_comm]

theorem forM_ok {f : α → Except ε Unit} {xs : List α} :
    xs.forM f = .ok () ↔ ∀ a ∈ xs, f a = .ok () := by
  induction xs with
  | nil => simp [List.forM, pure, Except.pure]
  | cons a xs ih =>
      rw [List.forM_eq_forM, List.forM_cons, bind_ok, List.forall_mem_cons, ← List.forM_eq_forM, ← ih]
      exact ⟨fun ⟨_, ha, hxs⟩ => ⟨ha, hxs⟩, fun ⟨ha, hxs⟩ => ⟨(), ha, hxs⟩⟩

end Check

namespace Action

variable {σ τ α β : Type} {s s' : σ}

theorem bind_ok {x : Action σ α} {f : α → Action σ β} {b : β} :
    (x >>= f).run s = .ok b s' ↔ ∃ a t, x.run s = .ok a t ∧ (f a).run t = .ok b s' := by
  simp only [EStateM.run, bind, EStateM.bind]
  cases x s <;> simp [and_assoc]

theorem bind_error {x : Action σ α} {f : α → Action σ β} {e : Failure} :
    (x >>= f).run s = .error e s' ↔
      x.run s = .error e s' ∨ ∃ a t, x.run s = .ok a t ∧ (f a).run t = .error e s' := by
  simp only [EStateM.run, bind, EStateM.bind]
  cases x s <;> simp [and_assoc]

/-- What follows an operation that succeeded starts where that one ended. -/
theorem run_bind {x : Action σ α} {f : α → Action σ β} {a : α} (h : x.run s = .ok a s') :
    (x >>= f).run s = (f a).run s' := by
  simp only [EStateM.run] at h
  simp only [EStateM.run, bind, EStateM.bind, h]

theorem pure_ok {a b : α} : (pure a : Action σ α).run s = .ok b s' ↔ b = a ∧ s' = s := by
  simp [EStateM.run, pure, EStateM.pure, eq_comm]

theorem map_ok {x : Action σ α} {f : α → β} {b : β} :
    (f <$> x).run s = .ok b s' ↔ ∃ a, x.run s = .ok a s' ∧ f a = b := by
  simp only [EStateM.run, Functor.map, EStateM.map]
  cases x s with
  | ok a t =>
      simp only [EStateM.Result.ok.injEq, and_assoc, exists_eq_left']
      exact and_comm
  | error e t => simp

theorem map_error {x : Action σ α} {f : α → β} {e : Failure} :
    (f <$> x).run s = .error e s' ↔ x.run s = .error e s' := by
  simp only [EStateM.run, Functor.map, EStateM.map]
  cases x s <;> simp

theorem get_ok {a : σ} : (get : Action σ σ).run s = .ok a s' ↔ a = s ∧ s' = s := by
  show EStateM.Result.ok s s = .ok a s' ↔ a = s ∧ s' = s
  rw [EStateM.Result.ok.injEq, eq_comm, @eq_comm σ s s']

theorem modify_ok {f : σ → σ} {u : Unit} :
    (modify f : Action σ Unit).run s = .ok u s' ↔ s' = f s := by
  show EStateM.Result.ok () (f s) = .ok u s' ↔ s' = f s
  rw [EStateM.Result.ok.injEq, @eq_comm σ (f s) s']
  exact and_iff_right rfl

theorem lift_ok {x : Except Failure α} {a : α} :
    (liftM x : Action σ α).run s = .ok a s' ↔ x = .ok a ∧ s' = s :=
  observe_ok (f := fun _ => x)

theorem lift_error {x : Except Failure α} {e : Failure} :
    (liftM x : Action σ α).run s = .error e s' ↔ x = .error e ∧ s' = s :=
  observe_error (f := fun _ => x)

theorem zoom_ok {get : σ → τ} {set : τ → σ → σ} {x : Action τ α} {a : α} :
    (zoom get set x).run s = .ok a s' ↔ ∃ t, x.run (get s) = .ok a t ∧ s' = set t s := by
  simp only [EStateM.run, zoom]
  cases x (get s) <;> simp [and_assoc, eq_comm]

theorem zoom_error {get : σ → τ} {set : τ → σ → σ} {x : Action τ α} {e : Failure} :
    (zoom get set x).run s = .error e s' ↔ ∃ t, x.run (get s) = .error e t ∧ s' = set t s := by
  simp only [EStateM.run, zoom]
  cases x (get s) <;> simp [and_assoc, eq_comm]

theorem outcome_ok {x : Action σ α} {a : α} : x.outcome s = .ok (a, s') ↔ x.run s = .ok a s' := by
  simp only [EStateM.run, outcome]
  cases x s <;> simp

theorem outcome_error {x : Action σ α} {e : Failure} :
    x.outcome s = .error e ↔ ∃ s', x.run s = .error e s' := by
  simp only [EStateM.run, outcome]
  cases x s <;> simp

theorem ok_of_outcome_isOk {x : Action σ α} (h : (x.outcome s).isOk) : ∃ a s', x.run s = .ok a s' := by
  cases hx : x.outcome s with
  | error e =>
      rw [hx] at h
      cases h
  | ok r => exact ⟨r.1, r.2, outcome_ok.1 hx⟩

theorem mapM_nil_ok {f : α → Action σ β} {bs : List β} :
    (([] : List α).mapM f).run s = .ok bs s' ↔ bs = [] ∧ s' = s := by
  rw [List.mapM_nil, pure_ok]

theorem mapM_cons_ok {f : α → Action σ β} {a : α} {as : List α} {bs : List β} :
    ((a :: as).mapM f).run s = .ok bs s' ↔
      ∃ b t cs, (f a).run s = .ok b t ∧ (as.mapM f).run t = .ok cs s' ∧ bs = b :: cs := by
  simp only [List.mapM_cons, bind_ok, pure_ok]
  constructor
  · rintro ⟨b, t, hb, cs, _, hcs, rfl, rfl⟩
    exact ⟨b, t, cs, hb, hcs, rfl⟩
  · rintro ⟨b, t, cs, hb, hcs, rfl⟩
    exact ⟨b, t, hb, cs, s', hcs, rfl, rfl⟩

/-- Operations in sequence fail where one of them does, after those before it have succeeded. -/
theorem mapM_error {f : α → Action σ β} {as : List α} {e : Failure} :
    (as.mapM f).run s = .error e s' ↔ ∃ before a after bs t, as = before ++ a :: after ∧
      (before.mapM f).run s = .ok bs t ∧ (f a).run t = .error e s' := by
  constructor
  · intro h
    induction as generalizing s with
    | nil => cases h
    | cons a as ih =>
        simp only [List.mapM_cons, bind_error] at h
        rcases h with hfirst | ⟨b, t, hfirst, hrest | ⟨_, _, -, hnone⟩⟩
        · exact ⟨[], a, as, [], s, rfl, mapM_nil_ok.2 ⟨rfl, rfl⟩, hfirst⟩
        · obtain ⟨before, a', after, bs, u, rfl, hbefore, hlast⟩ := ih hrest
          exact ⟨a :: before, a', after, b :: bs, u, rfl,
            mapM_cons_ok.2 ⟨b, t, bs, hfirst, hbefore, rfl⟩, hlast⟩
        · cases hnone
  · rintro ⟨before, a, after, bs, t, rfl, hbefore, hlast⟩
    rw [List.mapM_append, run_bind hbefore, List.mapM_cons]
    exact bind_error.2 (Or.inl (bind_error.2 (Or.inl hlast)))

theorem forM_cons_ok {f : α → Action σ Unit} {a : α} {as : List α} {u : Unit} :
    ((a :: as).forM f).run s = .ok u s' ↔
      ∃ t, (f a).run s = .ok () t ∧ (as.forM f).run t = .ok () s' := by
  rw [List.forM_eq_forM, List.forM_cons, bind_ok, ← List.forM_eq_forM]
  exact ⟨fun ⟨_, t, ha, has⟩ => ⟨t, ha, has⟩, fun ⟨t, ha, has⟩ => ⟨(), t, ha, has⟩⟩

/-- Operations in sequence keep what each of them keeps. -/
theorem mapM_keeps {P : σ → Prop} {f : α → Action σ β} {as : List α} {bs : List β}
    (hf : ∀ a ∈ as, ∀ s b s', P s → (f a).run s = .ok b s' → P s') (hs : P s)
    (h : (as.mapM f).run s = .ok bs s') : P s' := by
  induction as generalizing s bs with
  | nil =>
      obtain ⟨-, rfl⟩ := mapM_nil_ok.1 h
      exact hs
  | cons a as ih =>
      obtain ⟨b, t, cs, ha, has, -⟩ := mapM_cons_ok.1 h
      exact ih (fun a' ha' => hf a' (List.mem_cons_of_mem _ ha'))
        (hf a List.mem_cons_self s b t hs ha) has

theorem forM_keeps {P : σ → Prop} {f : α → Action σ Unit} {as : List α} {u : Unit}
    (hf : ∀ a ∈ as, ∀ s s', P s → (f a).run s = .ok () s' → P s') (hs : P s)
    (h : (as.forM f).run s = .ok u s') : P s' := by
  induction as generalizing s with
  | nil =>
      obtain ⟨-, rfl⟩ := pure_ok.1 h
      exact hs
  | cons a as ih =>
      obtain ⟨t, ha, has⟩ := forM_cons_ok.1 h
      exact ih (fun a' ha' => hf a' (List.mem_cons_of_mem _ ha')) (hf a List.mem_cons_self s t hs ha) has

/-- Each of some operations in sequence was run, from a state in which what they all keep holds. -/
theorem mapM_ran {P : σ → Prop} {f : α → Action σ β} {as : List α} {bs : List β} {a : α}
    (hf : ∀ a ∈ as, ∀ s b s', P s → (f a).run s = .ok b s' → P s') (hs : P s)
    (h : (as.mapM f).run s = .ok bs s') (ha : a ∈ as) : ∃ t b t', P t ∧ (f a).run t = .ok b t' := by
  induction as generalizing s bs with
  | nil => cases ha
  | cons a' as ih =>
      obtain ⟨b, t, cs, hfirst, hrest, -⟩ := mapM_cons_ok.1 h
      rcases List.mem_cons.1 ha with rfl | ha
      · exact ⟨s, b, t, hs, hfirst⟩
      · exact ih (fun x hx => hf x (List.mem_cons_of_mem _ hx)) (hf a' List.mem_cons_self s b t hs hfirst)
          hrest ha

/-- Lists of operations in sequence are the one list of all of them. -/
theorem mapM_flatMap {γ : Type} (f : β → Action σ γ) (g : α → List β) (as : List α) :
    (as.flatMap g).mapM f = List.flatten <$> as.mapM fun a => (g a).mapM f := by
  induction as with
  | nil => simp
  | cons a as ih => simp [ih]

/-- From `s` on, an operation fails for causes of this kind only. -/
def FailsOnly (E : Failure → Prop) (x : Action σ α) (s : σ) : Prop :=
  ∀ e s', x.run s = .error e s' → E e

namespace FailsOnly

variable {E : Failure → Prop} {x : Action σ α}

theorem bind {f : α → Action σ β} (hx : x.FailsOnly E s)
    (hf : ∀ a t, x.run s = .ok a t → (f a).FailsOnly E t) : (x >>= f).FailsOnly E s := by
  intro e s' h
  rcases bind_error.1 h with hfirst | ⟨a, t, hfirst, hrest⟩
  · exact hx e s' hfirst
  · exact hf a t hfirst e s' hrest

theorem of_ok {a : α} (h : x.run s = .ok a s') : x.FailsOnly E s := by
  intro e s'' hfail
  rw [h] at hfail
  cases hfail

theorem pure (a : α) : (Pure.pure a : Action σ α).FailsOnly E s := of_ok (pure_ok.2 ⟨rfl, rfl⟩)

theorem modify (f : σ → σ) : (MonadStateOf.modifyGet fun s => ((), f s) : Action σ Unit).FailsOnly E s := by
  intro e s' h
  cases h

/-- What is read is there. -/
theorem get_bind {f : σ → Action σ β} (hf : (f s).FailsOnly E s) : (get >>= f).FailsOnly E s := by
  refine bind (of_ok (get_ok.2 ⟨rfl, rfl⟩)) fun a t h => ?_
  obtain ⟨rfl, rfl⟩ := get_ok.1 h
  exact hf

/-- A question with an answer does not fail. -/
theorem lift_bind {y : Except Failure α} {a : α} {f : α → Action σ β} (hy : y = .ok a)
    (hf : (f a).FailsOnly E s) : ((liftM y : Action σ α) >>= f).FailsOnly E s := by
  refine bind (of_ok (lift_ok.2 ⟨hy, rfl⟩)) fun b t h => ?_
  obtain ⟨hb, rfl⟩ := lift_ok.1 h
  rw [hy, Except.ok.injEq] at hb
  exact hb ▸ hf

theorem observe_bind {y : σ → Except Failure α} {a : α} {f : α → Action σ β} (hy : y s = .ok a)
    (hf : (f a).FailsOnly E s) : (observe y >>= f).FailsOnly E s := by
  refine bind (of_ok (observe_ok.2 ⟨hy, rfl⟩)) fun b t h => ?_
  obtain ⟨hb, rfl⟩ := observe_ok.1 h
  rw [hy, Except.ok.injEq] at hb
  exact hb ▸ hf

theorem update {f : σ → Except Failure σ} (h : ∀ e, f s = .error e → E e) :
    (Action.update f).FailsOnly E s := fun e _ hfail => h e (update_error.1 hfail).1

theorem transact {f : σ → Except Failure (α × σ)} (h : ∀ e, f s = .error e → E e) :
    (Action.transact f).FailsOnly E s := fun e _ hfail => h e (transact_error.1 hfail).1

theorem zoom {get : σ → τ} {set : τ → σ → σ} {y : Action τ α} (h : y.FailsOnly E (get s)) :
    (Action.zoom get set y).FailsOnly E s := by
  intro e s' hfail
  obtain ⟨t, hy, -⟩ := zoom_error.1 hfail
  exact h e t hy

/-- Operations in sequence, where `P` holds of the operations still to come and of the state. -/
theorem mapM {P : List α → σ → Prop} {f : α → Action σ β} {as : List α}
    (hfail : ∀ a as s, P (a :: as) s → (f a).FailsOnly E s)
    (hkeep : ∀ a as s b t, P (a :: as) s → (f a).run s = .ok b t → P as t) (hs : P as s) :
    (as.mapM f).FailsOnly E s := by
  induction as generalizing s with
  | nil => exact of_ok (mapM_nil_ok.2 ⟨rfl, rfl⟩)
  | cons a as ih =>
      rw [List.mapM_cons]
      refine (hfail a as s hs).bind fun b t hfirst => ?_
      refine (ih (hkeep a as s b t hs hfirst)).bind fun bs u _ => ?_
      exact of_ok (pure_ok.2 ⟨rfl, rfl⟩)

end FailsOnly

/-- From `s` on, an operation succeeds, and `Q` says with what result and in which state. -/
def Succeeds (x : Action σ α) (s : σ) (Q : α → σ → Prop) : Prop := ∃ a s', x.run s = .ok a s' ∧ Q a s'

namespace Succeeds

variable {x : Action σ α} {Q R : α → σ → Prop}

theorem imp (hx : x.Succeeds s Q) (hQR : ∀ a t, Q a t → R a t) : x.Succeeds s R := by
  obtain ⟨a, t, hrun, ht⟩ := hx
  exact ⟨a, t, hrun, hQR a t ht⟩

theorem pure {a : α} (h : Q a s) : (Pure.pure a : Action σ α).Succeeds s Q := ⟨a, s, rfl, h⟩

theorem bind {f : α → Action σ β} {R : β → σ → Prop} (hx : x.Succeeds s Q)
    (hf : ∀ a t, Q a t → (f a).Succeeds t R) : (x >>= f).Succeeds s R := by
  obtain ⟨a, t, hfirst, ht⟩ := hx
  obtain ⟨b, u, hrest, hu⟩ := hf a t ht
  exact ⟨b, u, bind_ok.2 ⟨a, t, hfirst, hrest⟩, hu⟩

theorem zoom {get : σ → τ} {set : τ → σ → σ} {y : Action τ α} (h : y.Succeeds (get s) fun a t => Q a (set t s)) :
    (Action.zoom get set y).Succeeds s Q := by
  obtain ⟨a, t, hrun, ht⟩ := h
  exact ⟨a, set t s, zoom_ok.2 ⟨t, hrun, rfl⟩, ht⟩

/-- Operations in sequence, where `P` holds of what is still to come, of the results so far and of the state. -/
theorem mapM {P : List α → List β → σ → Prop} {f : α → Action σ β} {as : List α} {done : List β}
    (hf : ∀ a as done s, P (a :: as) done s → (f a).Succeeds s fun b t => P as (done ++ [b]) t)
    (hs : P as done s) : (as.mapM f).Succeeds s fun bs t => P [] (done ++ bs) t := by
  induction as generalizing done s with
  | nil =>
      rw [List.mapM_nil]
      exact pure (by simpa only [List.append_nil] using hs)
  | cons a as ih =>
      rw [List.mapM_cons]
      refine (hf a as done s hs).bind fun b t ht => ?_
      refine (ih ht).bind fun bs u hu => ?_
      exact pure (by simpa only [List.append_assoc, List.singleton_append] using hu)

theorem forM {P : List α → σ → Prop} {f : α → Action σ Unit} {as : List α}
    (hf : ∀ a as s, P (a :: as) s → (f a).Succeeds s fun _ t => P as t) (hs : P as s) :
    (as.forM f).Succeeds s fun _ t => P [] t := by
  induction as generalizing s with
  | nil => exact pure hs
  | cons a as ih =>
      rw [List.forM_eq_forM, List.forM_cons]
      exact (hf a as s hs).bind fun _ t ht => ih ht

end Succeeds

/-- The state after an operation, whether it succeeded or failed. -/
def after (x : Action σ α) (s : σ) : σ :=
  match x.run s with
  | .ok _ s' => s'
  | .error _ s' => s'

/-- From `s` on, an operation leaves what `P` says, whether it succeeds or fails, and it fails for causes of
this kind only. -/
structure Keeps (P : σ → Prop) (E : Failure → Prop) (x : Action σ α) (s : σ) : Prop where
  ok : ∀ a s', x.run s = .ok a s' → P s'
  error : ∀ e s', x.run s = .error e s' → P s' ∧ E e

namespace Keeps

variable {P : σ → Prop} {E : Failure → Prop} {x : Action σ α}

theorem bind {f : α → Action σ β} (hx : x.Keeps P E s)
    (hf : ∀ a t, x.run s = .ok a t → P t → (f a).Keeps P E t) : (x >>= f).Keeps P E s where
  ok := by
    intro b s' h
    obtain ⟨a, t, hfirst, hrest⟩ := bind_ok.1 h
    exact (hf a t hfirst (hx.ok a t hfirst)).ok b s' hrest
  error := by
    intro e s' h
    rcases bind_error.1 h with hfirst | ⟨a, t, hfirst, hrest⟩
    · exact hx.error e s' hfirst
    · exact (hf a t hfirst (hx.ok a t hfirst)).error e s' hrest

theorem pure (a : α) (hs : P s) : (Pure.pure a : Action σ α).Keeps P E s where
  ok := by
    intro b s' h
    obtain ⟨-, rfl⟩ := pure_ok.1 h
    exact hs
  error := by
    intro e s' h
    cases h

theorem modify {f : σ → σ} (h : P (f s)) :
    (MonadStateOf.modifyGet fun s => ((), f s) : Action σ Unit).Keeps P E s where
  ok := by
    intro u s' hrun
    obtain rfl := modify_ok.1 hrun
    exact h
  error := by
    intro e s' hrun
    cases hrun

theorem get_bind {f : σ → Action σ β} (hs : P s) (hf : (f s).Keeps P E s) : (get >>= f).Keeps P E s := by
  refine bind ⟨fun a t h => ?_, fun e t h => by cases h⟩ fun a t h _ => ?_
  · obtain ⟨-, rfl⟩ := get_ok.1 h
    exact hs
  · obtain ⟨rfl, rfl⟩ := get_ok.1 h
    exact hf

theorem lift {y : Except Failure α} (hs : P s) (herror : ∀ e, y = .error e → E e) :
    (liftM y : Action σ α).Keeps P E s where
  ok := by
    intro a t h
    obtain ⟨-, rfl⟩ := lift_ok.1 h
    exact hs
  error := by
    intro e t h
    obtain ⟨he, rfl⟩ := lift_error.1 h
    exact ⟨hs, herror e he⟩

/-- A question changes nothing, and what follows is told its answer. -/
theorem lift_bind {y : Except Failure α} {f : α → Action σ β} (hs : P s)
    (herror : ∀ e, y = .error e → E e) (hf : ∀ a, y = .ok a → (f a).Keeps P E s) :
    ((liftM y : Action σ α) >>= f).Keeps P E s := by
  refine (lift hs herror).bind fun a t h _ => ?_
  obtain ⟨ha, rfl⟩ := lift_ok.1 h
  exact hf a ha

theorem known_bind {y : Except Failure α} {a : α} {f : α → Action σ β} (hy : y = .ok a)
    (hf : (f a).Keeps P E s) : ((liftM y : Action σ α) >>= f).Keeps P E s where
  ok := by
    intro b s' h
    obtain ⟨a', t, hlift, hrest⟩ := bind_ok.1 h
    obtain ⟨ha, rfl⟩ := lift_ok.1 hlift
    rw [hy, Except.ok.injEq] at ha
    exact hf.ok b s' (ha ▸ hrest)
  error := by
    intro e s' h
    rcases bind_error.1 h with hlift | ⟨a', t, hlift, hrest⟩
    · obtain ⟨he, -⟩ := lift_error.1 hlift
      rw [hy] at he
      cases he
    · obtain ⟨ha, rfl⟩ := lift_ok.1 hlift
      rw [hy, Except.ok.injEq] at ha
      exact hf.error e s' (ha ▸ hrest)

/-- A single step that fails has not done anything. -/
theorem transact {f : σ → Except Failure (α × σ)} (hs : P s)
    (hok : ∀ a t, (Action.transact f).run s = .ok a t → P t) (herror : ∀ e, f s = .error e → E e) :
    (Action.transact f).Keeps P E s where
  ok := hok
  error := by
    intro e t h
    obtain ⟨he, rfl⟩ := transact_error.1 h
    exact ⟨hs, herror e he⟩

theorem update {f : σ → Except Failure σ} (hs : P s) (hok : ∀ t, (Action.update f).run s = .ok () t → P t)
    (herror : ∀ e, f s = .error e → E e) : (Action.update f).Keeps P E s where
  ok := fun _ => hok
  error := by
    intro e t h
    obtain ⟨he, rfl⟩ := update_error.1 h
    exact ⟨hs, herror e he⟩

theorem zoom {get : σ → τ} {set : τ → σ → σ} {y : Action τ α}
    (h : y.Keeps (fun t => P (set t s)) E (get s)) : (Action.zoom get set y).Keeps P E s where
  ok := by
    intro a s' hrun
    obtain ⟨t, hy, rfl⟩ := zoom_ok.1 hrun
    exact h.ok a t hy
  error := by
    intro e s' hrun
    obtain ⟨t, hy, rfl⟩ := zoom_error.1 hrun
    exact h.error e t hy

/-- Operations in sequence, each of which keeps `P` from wherever `P` holds. -/
theorem mapM {f : α → Action σ β} {as : List α} (hf : ∀ a ∈ as, ∀ t, P t → (f a).Keeps P E t)
    (hs : P s) : (as.mapM f).Keeps P E s := by
  induction as generalizing s with
  | nil => exact pure [] hs
  | cons a as ih =>
      rw [List.mapM_cons]
      refine (hf a List.mem_cons_self s hs).bind fun b t _ ht => ?_
      refine (ih (fun a' ha' => hf a' (List.mem_cons_of_mem _ ha')) ht).bind fun bs u _ hu => ?_
      exact pure _ hu

theorem forM {f : α → Action σ Unit} {as : List α} (hf : ∀ a ∈ as, ∀ t, P t → (f a).Keeps P E t)
    (hs : P s) : (as.forM f).Keeps P E s := by
  induction as generalizing s with
  | nil => exact pure () hs
  | cons a as ih =>
      rw [List.forM_eq_forM, List.forM_cons]
      refine (hf a List.mem_cons_self s hs).bind fun _ t _ ht => ?_
      exact ih (fun a' ha' => hf a' (List.mem_cons_of_mem _ ha')) ht

end Keeps

end Action

namespace Account

variable {α : Type} {s s' : Account}

theorem onWorld_ok {x : Action World α} {a : α} :
    (onWorld x).run s = .ok a s' ↔ ∃ w, x.run s.world = .ok a w ∧ s' = { s with world := w } :=
  Action.zoom_ok

theorem onFlows_ok {x : Action CashFlows α} {a : α} :
    (onFlows x).run s = .ok a s' ↔ ∃ f, x.run s.flows = .ok a f ∧ s' = { s with flows := f } :=
  Action.zoom_ok

end Account

end Mercantile
