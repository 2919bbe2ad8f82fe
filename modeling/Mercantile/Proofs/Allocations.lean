import Mercantile.Proofs.Fit
import Mercantile.Proofs.Money

/-!
Standing allocations as a map from companies. Putting an entity into an ascending roster changes the look-up of its
identifier and no other (`Roster.Ascending.get?_put`), wherever it goes in and whatever it replaces. So after any
calls, refused ones among them, a company has the allocation of the last call that was accepted for it
(`World.allocationFor?_allot`), and that is the one its multipliers are worked out from.
-/

namespace Mercantile

namespace Roster

variable {α : Type} {kind : EntityKind} [Keyed α kind] {xs : Roster α} {a b : α}

/-- An entity goes in somewhere, or takes the place of one with its identifier. -/
theorem put_cases (xs : Roster α) (a : α) : (∃ n ≤ xs.length, xs.put a = xs.insertIdx n a) ∨
    ∃ n c, xs[n]? = some c ∧ key c = key a ∧ xs.put a = xs.set n a := by
  simp only [put]
  split
  · next hnone =>
    have hnil : xs.keys = [] := by
      by_contra hne
      exact absurd (settle_lt hne) (Nat.not_lt.2 (List.getElem?_eq_none_iff.1 hnone))
    have hrest : settle (key a).toNat xs.keys = 0 := by
      rw [hnil, settle]
      exact dif_pos (Nat.zero_le 1)
    exact Or.inl ⟨_, hrest ▸ Nat.zero_le _, rfl⟩
  · next k hk =>
    rw [keys_getElem?] at hk
    obtain ⟨c, hc, rfl⟩ := Option.map_eq_some_iff.1 hk
    have hlt := (List.getElem?_eq_some_iff.1 hc).1
    split
    · next hkey => exact Or.inr ⟨_, c, hc, Id.toNat_inj.1 hkey, rfl⟩
    · split
      · exact Or.inl ⟨_, hlt, rfl⟩
      · exact Or.inl ⟨_, Nat.le_of_lt hlt, rfl⟩

theorem mem_put_self (xs : Roster α) (a : α) : a ∈ xs.put a := by
  rcases put_cases xs a with ⟨n, hn, hput⟩ | ⟨n, c, hc, -, hput⟩
  · rw [hput, List.mem_insertIdx hn]
    exact Or.inl rfl
  · rw [hput]
    exact List.mem_set (List.getElem?_eq_some_iff.1 hc).1 a

theorem mem_put_of_ne (hb : b ∈ xs) (hne : key b ≠ key a) : b ∈ xs.put a := by
  rcases put_cases xs a with ⟨n, hn, hput⟩ | ⟨n, c, hc, hkey, hput⟩
  · rw [hput, List.mem_insertIdx hn]
    exact Or.inr hb
  · obtain ⟨m, hm⟩ := List.getElem?_of_mem hb
    have hplace : n ≠ m := by
      rintro rfl
      exact hne (Option.some_inj.1 (hm.symm.trans hc) ▸ hkey)
    rw [hput]
    exact List.mem_of_getElem? ((List.getElem?_set_ne hplace).trans hm)

theorem Ascending.mem_put_iff (hs : xs.Ascending) : b ∈ xs.put a ↔ b = a ∨ b ∈ xs ∧ key b ≠ key a := by
  constructor
  · intro hb
    by_cases hkey : key b = key a
    · exact Or.inl ((hs.put a).eq_of_key_eq hb (mem_put_self xs a) hkey)
    · exact (mem_put hb).imp_right fun hmem => ⟨hmem, hkey⟩
  · rintro (rfl | ⟨hb, hne⟩)
    · exact mem_put_self xs b
    · exact mem_put_of_ne hb hne

/-- What is put is found under its identifier, and the look-up of any other one is what it was. -/
theorem Ascending.get?_put (hs : xs.Ascending) (a : α) (i : Id kind) :
    (xs.put a).get? i = if key a = i then some a else xs.get? i := by
  refine Option.ext fun b => ?_
  rw [get?_eq_some (hs.put a), hs.mem_put_iff]
  split
  · next hi =>
    rw [Option.some_inj]
    constructor
    · rintro ⟨rfl | ⟨-, hne⟩, hb⟩
      · rfl
      · exact absurd (hb.trans hi.symm) hne
    · rintro rfl
      exact ⟨Or.inl rfl, hi⟩
  · next hi =>
    rw [get?_eq_some hs]
    constructor
    · rintro ⟨rfl | ⟨hb, -⟩, hkey⟩
      · exact absurd hkey hi
      · exact ⟨hb, hkey⟩
    · rintro ⟨hb, rfl⟩
      exact ⟨Or.inr ⟨hb, fun he => hi he.symm⟩, rfl⟩

theorem Ascending.keys_nodup (hs : xs.Ascending) : (xs.map key).Nodup := by
  have := hs.nodup_filter fun _ => true
  rwa [List.filter_true] at this

end Roster

namespace Allocation

/-- The sum of the percentages. -/
def total (a : Allocation) : Nat :=
  a.operations.toNat + a.research.toNat + a.logistics.toNat + a.corporate.toNat

/-- A world takes an allocation of a whole for a company that it finds. -/
def Admitted (w : World) (a : Allocation) : Prop := (w.companies.get? a.company).isSome ∧ a.total = 100

instance (w : World) (a : Allocation) : Decidable (a.Admitted w) := inferInstanceAs (Decidable (_ ∧ _))

/-- Why an allocation is not taken: the company is looked for first. -/
def failure (w : World) (a : Allocation) : Failure :=
  match w.companies.get? a.company with
  | none => .notFound .company a.company.val
  | some _ => .invalidRequest (.rule (.boundedSum Subject.allocation.label 100 a.total))

theorem check_of_total_ne {a : Allocation} (h : a.total ≠ 100) :
    a.check = .error (.boundedSum Subject.allocation.label 100 a.total) := by
  have hsum : (a.percentages.map (·.toNat)).foldr (· + ·) 0 = a.total := by
    simp only [percentages, total, List.map_cons, List.map_nil, List.foldr_cons, List.foldr_nil]
    omega
  simp only [check, checkSum, hsum]
  exact if_neg h

end Allocation

variable {w : World} {a : Allocation}

theorem setAllocation_admitted (h : a.Admitted w) : (setAllocation a).run w = .ok () (w.putAllocation a) := by
  obtain ⟨c, hc⟩ := Option.isSome_iff_exists.1 h.1
  rw [setAllocation, Action.update_ok, Check.bind_ok]
  refine ⟨c, Roster.require_ok.2 hc, ?_⟩
  rw [Allocation.check_ok.2 h.2]
  rfl

theorem setAllocation_refused (h : ¬ a.Admitted w) : (setAllocation a).run w = .error (a.failure w) w := by
  rw [setAllocation, Action.update_error, Check.bind_error, Allocation.failure]
  refine ⟨?_, rfl⟩
  cases hc : w.companies.get? a.company with
  | none => exact Or.inl (Roster.require_error.2 ⟨hc, rfl⟩)
  | some c =>
      have htotal : a.total ≠ 100 := fun he => h ⟨Option.isSome_iff_exists.2 ⟨c, hc⟩, he⟩
      refine Or.inr ⟨c, Roster.require_ok.2 hc, ?_⟩
      rw [Allocation.check_of_total_ne htotal]
      rfl

namespace World

/-- The allocations ascend by company, and each is a whole. -/
structure WellAllocated (w : World) : Prop where
  ascending : w.allocations.Ascending
  whole : ∀ a ∈ w.allocations, a.total = 100

theorem WellAllocated.put (h : w.WellAllocated) (ha : a.total = 100) : (w.putAllocation a).WellAllocated where
  ascending := h.ascending.put a
  whole := fun b hb => (Roster.mem_put hb).elim (fun hba => hba ▸ ha) (h.whole b)

/-- Allocations set one after another, whether this succeeds or fails. -/
def allot (w : World) (as : List Allocation) : World := as.foldl (fun v a => (setAllocation a).after v) w

/-- The allocations that are accepted when it is their turn. -/
def allotted (w : World) : List Allocation → List Allocation
  | [] => []
  | a :: as =>
    match (setAllocation a).run w with
    | .ok _ v => a :: allotted v as
    | .error _ v => allotted v as

theorem allot_admitted (h : a.Admitted w) (as : List Allocation) :
    w.allot (a :: as) = (w.putAllocation a).allot as ∧
      w.allotted (a :: as) = a :: (w.putAllocation a).allotted as := by
  rw [allotted, allot, List.foldl_cons, Action.after, setAllocation_admitted h]
  exact ⟨rfl, rfl⟩

theorem allot_refused (h : ¬ a.Admitted w) (as : List Allocation) :
    w.allot (a :: as) = w.allot as ∧ w.allotted (a :: as) = w.allotted as := by
  rw [allotted, allot, List.foldl_cons, Action.after, setAllocation_refused h]
  exact ⟨rfl, rfl⟩

/-- Calls keep allocations well, they change nothing else, and they are accepted for what they are. -/
theorem WellAllocated.allot (h : w.WellAllocated) (as : List Allocation) : (w.allot as).WellAllocated ∧
    w.allot as = { w with allocations := (w.allot as).allocations } ∧ w.allotted as = as.filter (·.Admitted w) := by
  induction as generalizing w with
  | nil => exact ⟨h, rfl, rfl⟩
  | cons a as ih =>
      by_cases ha : a.Admitted w
      · obtain ⟨hworld, haccepted⟩ := allot_admitted ha as
        rw [hworld, haccepted, List.filter_cons, if_pos (decide_eq_true ha)]
        obtain ⟨hwell, hframe, hfilter⟩ := ih (h.put ha.2)
        exact ⟨hwell, hframe, congrArg (a :: ·) hfilter⟩
      · obtain ⟨hworld, haccepted⟩ := allot_refused ha as
        rw [hworld, haccepted, List.filter_cons, if_neg (by rwa [decide_eq_true_eq])]
        exact ih h

/-- A company has what was last accepted for it, else what it had. -/
theorem allocationFor?_allot (h : w.WellAllocated) (as : List Allocation) (company : CompanyId) :
    (w.allot as).allocationFor? company =
      ((w.allotted as).filter (·.company = company)).getLast?.or (w.allocationFor? company) := by
  induction as generalizing w with
  | nil => rfl
  | cons a as ih =>
      by_cases ha : a.Admitted w
      · obtain ⟨hworld, haccepted⟩ := allot_admitted ha as
        have hput : (w.putAllocation a).allocationFor? company =
            if a.company = company then some a else w.allocationFor? company := h.ascending.get?_put a company
        rw [hworld, haccepted, ih (h.put ha.2), hput]
        by_cases hcompany : a.company = company
        · rw [if_pos hcompany, List.filter_cons, if_pos (decide_eq_true hcompany), List.getLast?_cons, Option.some_or]
          cases (((w.putAllocation a).allotted as).filter (·.company = company)).getLast? <;> rfl
        · rw [if_neg hcompany, List.filter_cons, if_neg (by rwa [decide_eq_true_eq])]
      · obtain ⟨hworld, haccepted⟩ := allot_refused ha as
        rw [hworld, haccepted, ih h]

end World

/-- A listed company works at the multipliers of its allocation, or at one. -/
theorem lookup_companyMultipliers (cfg : WorkforceConfig) {c : Company} (hc : c ∈ w.companies) :
    (companyMultipliers w cfg).lookup c.id =
      some (((w.allocationFor? c.id).map (·.multipliers cfg)).getD .neutral) := by
  rw [companyMultipliers_eq]
  exact List.lookup_graph _ (List.mem_map_of_mem hc)

/-- Standing allocations are a map from companies. However calls are mixed, the ones accepted are those of a whole for
a company that is there. Afterwards there is one entry for a company, each a whole and found where it is, the last one
accepted for its company or the one it had; a call that is refused leaves the world as it is. Multipliers are listed
for the companies of the world, and are those of their entries, or one. -/
theorem allocations_standing (h : w.WellAllocated) (as : List Allocation) :
    (w.allot as).WellAllocated ∧ ((w.allot as).allocations.map (·.company)).Nodup ∧
      w.allot as = { w with allocations := (w.allot as).allocations } ∧
      (∀ b, b ∈ (w.allot as).allocations ↔ (w.allot as).allocationFor? b.company = some b) ∧
      w.allotted as = as.filter (·.Admitted w) ∧
      (∀ company, (w.allot as).allocationFor? company =
        ((w.allotted as).filter (·.company = company)).getLast?.or (w.allocationFor? company)) ∧
      (∀ a : Allocation, if a.Admitted w
        then (setAllocation a).run (w.allot as) = .ok () ((w.allot as).putAllocation a)
        else (setAllocation a).run (w.allot as) = .error (a.failure w) (w.allot as)) ∧
      ∀ cfg : WorkforceConfig,
        (companyMultipliers (w.allot as) cfg).map (·.1) = w.companies.map (·.id) ∧
        ∀ c ∈ w.companies, (companyMultipliers (w.allot as) cfg).lookup c.id = some
          (match ((w.allotted as).filter (·.company = c.id)).getLast?.or (w.allocationFor? c.id) with
            | some a => a.multipliers cfg
            | none => .neutral) := by
  obtain ⟨hwell, hframe, haccepted⟩ := h.allot as
  have hcompanies : (w.allot as).companies = w.companies := by rw [hframe]
  refine ⟨hwell, hwell.ascending.keys_nodup, hframe, fun b => ?_, haccepted, World.allocationFor?_allot h as,
    fun a => ?_, fun cfg => ⟨?_, fun c hc => ?_⟩⟩
  · rw [World.allocationFor?, Roster.get?_eq_some hwell.ascending]
    exact (and_iff_left rfl).symm
  · have hadmitted : a.Admitted (w.allot as) ↔ a.Admitted w := by
      rw [Allocation.Admitted, hcompanies, Allocation.Admitted]
    have hfailure : a.failure (w.allot as) = a.failure w := by
      rw [Allocation.failure, hcompanies, Allocation.failure]
    split
    · next ha => exact setAllocation_admitted (hadmitted.2 ha)
    · next ha =>
      rw [← hfailure]
      exact setAllocation_refused fun hadm => ha (hadmitted.1 hadm)
  · rw [companyMultipliers_eq, List.map_map, hcompanies]
    exact List.map_id' _
  · rw [lookup_companyMultipliers cfg (hcompanies ▸ hc), World.allocationFor?_allot h as]
    cases ((w.allotted as).filter (·.company = c.id)).getLast?.or (w.allocationFor? c.id) <;> rfl

/-- A world of four companies, one of which has an allocation. -/
def guildWorld : World :=
  { World.empty with
    companies := [⟨⟨2⟩, "Weaver", 0, 0, false⟩, ⟨⟨5⟩, "Miller", 0, 0, false⟩, ⟨⟨7⟩, "Cooper", 0, 0, false⟩,
      ⟨⟨9⟩, "Smith", 0, 0, false⟩]
    allocations := [⟨⟨5⟩, 40, 30, 20, 10⟩] }

/-- Allocations in no order of companies. One is for a company that is not there, and one comes to 356, which is a
hundred in eight bits. -/
def guildAllocations : List Allocation :=
  [.even ⟨9⟩, ⟨⟨2⟩, 100, 0, 0, 0⟩, ⟨⟨7⟩, 200, 56, 0, 100⟩, ⟨⟨5⟩, 10, 20, 30, 40⟩, .even ⟨3⟩, ⟨⟨2⟩, 0, 0, 0, 100⟩]

/-- The last of each company stands, three of the four companies have one, and the fourth works at one. -/
theorem allocations_standing_guild :
    let w := guildWorld.allot guildAllocations
    let accepted : List Allocation := [.even ⟨9⟩, ⟨⟨2⟩, 100, 0, 0, 0⟩, ⟨⟨5⟩, 10, 20, 30, 40⟩, ⟨⟨2⟩, 0, 0, 0, 100⟩]
    let wrapped : Allocation := ⟨⟨7⟩, 200, 56, 0, 100⟩
    guildWorld.WellAllocated ∧ w.WellAllocated ∧ guildWorld.allotted guildAllocations = accepted ∧
      [⟨2⟩, ⟨5⟩, ⟨7⟩, ⟨9⟩].map w.allocationFor? =
        [some ⟨⟨2⟩, 0, 0, 0, 100⟩, some ⟨⟨5⟩, 10, 20, 30, 40⟩, none, some (.even ⟨9⟩)] ∧
      (setAllocation wrapped).run w =
        .error (.invalidRequest (.rule (.boundedSum Subject.allocation.label 100 356))) w ∧
      (companyMultipliers w {}).lookup ⟨7⟩ = some .neutral := by
  intro w accepted wrapped
  have hwell : guildWorld.WellAllocated := ⟨by decide +kernel, by decide +kernel⟩
  obtain ⟨hafter, -, -, -, haccepted, hlast, hnext, htable⟩ := allocations_standing hwell guildAllocations
  have hlist : guildWorld.allotted guildAllocations = accepted := by
    rw [haccepted]
    decide +kernel
  have hfound : w.allocationFor? = fun company =>
      (accepted.filter (·.company = company)).getLast?.or (guildWorld.allocationFor? company) :=
    funext fun company => hlist ▸ hlast company
  have hwrapped : (setAllocation wrapped).run w = .error (wrapped.failure guildWorld) w := by
    have hrefused := hnext wrapped
    rwa [if_neg (by decide +kernel)] at hrefused
  have hfailure : wrapped.failure guildWorld =
      .invalidRequest (.rule (.boundedSum Subject.allocation.label 100 356)) := by decide +kernel
  have hneutral := (htable {}).2 ⟨⟨7⟩, "Cooper", 0, 0, false⟩ (by decide)
  refine ⟨hwell, hafter, hlist, ?_, hfailure ▸ hwrapped, ?_⟩
  · rw [hfound]
    decide +kernel
  · rw [hneutral, hlist]
    decide +kernel

end Mercantile
