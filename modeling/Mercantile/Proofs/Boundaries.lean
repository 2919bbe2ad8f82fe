import Mercantile.CommandLine.Arguments
import Mercantile.Proofs.Batches
import Mercantile.Proofs.Numerals

/-!
Two boundaries with one judgement. The arguments of a command and the requests of the engine are checked in two
places, on texts and on words. Main statement: `boundaries_agree`, a number of ticks is accepted, or refused for
the same cause, in both places, and an order that is accepted as arguments is no malformed request: what can still
stop it lies in the world (`planOrder_error`).
-/

namespace Mercantile

theorem EngineConfig.maxTicks_pos {cfg : EngineConfig} (h : cfg.check = .ok ()) :
    0 < cfg.maxTicksPerRequest.toNat := by
  simp only [check, checkPositive, Check.bind_ok, Check.bound_ok] at h
  obtain ⟨_, ⟨hticks, -⟩, -⟩ := h
  exact Nat.pos_of_ne_zero fun hzero => hticks (decide_eq_true (UInt32.toNat_inj.1 hzero))

/-- One tick is within every limit that a configuration may set. -/
theorem EngineConfig.within_one {cfg : EngineConfig} (h : cfg.check = .ok ()) :
    Within 1 (Int64.ofNat cfg.maxTicksPerRequest.toNat) 1 := by
  have hpos := EngineConfig.maxTicks_pos h
  have hbound := cfg.maxTicksPerRequest.toNat_lt
  have hlimit : (Int64.ofNat cfg.maxTicksPerRequest.toNat).toInt = cfg.maxTicksPerRequest.toNat :=
    Int64.toInt_ofNat_of_lt (by omega)
  have hone : (1 : Int64).toInt = 1 := by decide
  rw [Within, hlimit, hone]
  omega

/-- The engine judges a number of ticks as a range does. -/
theorem checkTicks_ok {n : Int64} {cfg : EngineConfig} {ticks : Nat} : checkTicks n cfg = .ok ticks ↔
    Within 1 (Int64.ofNat cfg.maxTicksPerRequest.toNat) n ∧ ticks = n.toInt.toNat := by
  unfold checkTicks
  split
  · next v hv =>
    obtain ⟨hn, rfl⟩ := checkRange_ok.1 hv
    simp [hn, eq_comm]
  · next e he => simp [(checkRange_error.1 he).1]

theorem checkTicks_error {n : Int64} {cfg : EngineConfig} {e : ValidationError} :
    checkTicks n cfg = .error (.invalidRequest (.rule e)) ↔
      checkRange "ticks" n 1 (Int64.ofNat cfg.maxTicksPerRequest.toNat) = .error e := by
  unfold checkTicks
  split
  · next v hv => simp [hv]
  · next e' he => simp [he]

/-- An order at a positive price for a positive quantity that can be counted in cents. -/
structure OrderRequest.WellFormed (r : OrderRequest) : Prop where
  price : 0 < r.price.toInt
  quantity : 0 < r.quantity.toNat
  countable : (r.quantity.toNat : Int) ≤ Int64.maxValue.toInt

/-- What can stop an order that makes sense: something is not there or not enough, or the order as a whole is worth
more than an amount can be. -/
inductive Failure.IsObstacle : Failure → Prop
  | absent (kind : EntityKind) (id : UInt64) : IsObstacle (.notFound kind id)
  | worth : IsObstacle (.overflow .notionalValue)
  | funds (company : CompanyId) (required available : Cents) :
      IsObstacle (.insufficientFunds company required available)
  | stock (company : CompanyId) (region : RegionId) (item : ItemId) (required available : Quantity) :
      IsObstacle (.insufficientInventory company region item required available)

theorem notional_obstacle {price : Cents} {q : Quantity} {e : Failure}
    (hq : (q.toNat : Int) ≤ Int64.maxValue.toInt) (h : notional price q = .error e) : e.IsObstacle := by
  rcases Check.bind_error.1 h with hcount | ⟨n, -, hworth⟩
  · have hlow := Int64.toInt_minValue
    rcases Int64.ofInt?_eq_none.1 (orFail_error.1 hcount).1 with hlt | hlt <;> omega
  · rw [(orFail_error.1 hworth).2]
    exact .worth

/-- An order that makes sense is planned, or an obstacle is in its way. -/
theorem planOrder_error {w : World} {r : OrderRequest} {e : Failure} (hr : r.WellFormed)
    (h : planOrder w r = .error e) : e.IsObstacle := by
  have hprice : ¬ r.price ≤ 0 := by
    rw [Int64.not_le, Int64.lt_iff_toInt_lt]
    exact hr.price
  have hquantity : r.quantity ≠ 0 := by
    rintro hzero
    have hpos := hr.quantity
    rw [hzero] at hpos
    exact absurd hpos (by decide)
  simp only [planOrder, Check.unless_error, hprice, hquantity, Check.bind_error, Roster.require_error, false_and,
    false_or, not_false_eq_true, true_and] at h
  rcases h with ⟨-, rfl⟩ | ⟨c, -, ⟨-, rfl⟩ | ⟨g, -, ⟨-, rfl⟩ | ⟨i, -, hworth | ⟨total, -, hcovered⟩⟩⟩⟩
  · exact .absent _ _
  · exact .absent _ _
  · exact .absent _ _
  · exact notional_obstacle hr.countable hworth
  · split at hcovered <;>
    · simp only [Check.unless_error, Check.pure_error, and_false, or_false] at hcovered
      rw [hcovered.2]
      constructor

namespace CommandLine

variable {cfg : EngineConfig} {a : Arguments}

/-- The command that an argument list is accepted as. -/
def Accepts (cfg : EngineConfig) (args : List String) (c : Command) : Prop :=
  ∃ a, Arguments.ofList args = .ok a ∧ a.toCommand cfg = .ok c

namespace Arguments

/-- Whatever else is given, the last number of ticks decides. -/
theorem toCommand_of_advance (h : a.command = "advance") (cfg : EngineConfig) : a.toCommand cfg =
    Command.advance <$> a.boundedInt .ticks 1 1 (Int64.ofNat cfg.maxTicksPerRequest.toNat) := by
  simp only [toCommand, h, bind_pure_comp]

theorem command_advance {n : Int64} (h : a.toCommand cfg = .ok (.advance n)) : a.command = "advance" := by
  unfold toCommand at h
  split at h
  case h_2 hname => exact hname
  all_goals simp [Check.map_ok] at h

theorem command_order {r : OrderRequest} (h : a.toCommand cfg = .ok (.order r)) : a.orderRequest = .ok r := by
  unfold toCommand at h
  split at h
  case h_5 =>
    obtain ⟨s, hs, heq⟩ := Check.bind_ok.1 h
    cases heq
    exact hs
  all_goals simp [Check.map_ok] at h

theorem boundedInt_within {f : Flag} {default min max v : Int64} (hdefault : Within min max default)
    (h : a.boundedInt f default min max = .ok v) : Within min max v := by
  unfold boundedInt at h
  split at h
  · exact (readBoundedInt_ok.1 h).2
  · cases h
    exact hdefault

theorem positiveInt_within {f : Flag} {v : Int64} (h : a.positiveInt f = .ok v) : Within 1 Int64.maxValue v := by
  obtain ⟨raw, -, hread⟩ := Check.bind_ok.1 h
  exact (readBoundedInt_ok.1 hread).2

theorem positive_bounds {f : Flag} {u : UInt64} (h : a.positive f = .ok u) :
    0 < u.toNat ∧ (u.toNat : Int) ≤ Int64.maxValue.toInt := by
  obtain ⟨v, hv, hu⟩ := Check.bind_ok.1 h
  obtain ⟨hlow, hhigh⟩ := positiveInt_within hv
  have hone : (1 : Int64).toInt = 1 := by decide
  have hmax := Int64.toInt_maxValue
  have hnat : u.toNat = v.toInt.toNat := by
    rw [Check.pure_ok.1 hu]
    exact UInt64.toNat_ofNat_of_lt' (by simp only [UInt64.size]; omega)
  omega

theorem orderRequest_wellFormed {r : OrderRequest} (h : a.orderRequest = .ok r) : r.WellFormed := by
  simp only [orderRequest, Check.bind_ok] at h
  obtain ⟨company, -, region, -, item, -, raw, -, side, -, price, hprice, quantity, hquantity, h⟩ := h
  rw [Check.pure_ok.1 h]
  have hone : (1 : Int64).toInt = 1 := by decide
  have hpaid : 0 < price.toInt := by
    have hlow := (positiveInt_within hprice).1
    omega
  obtain ⟨hpos, hmax⟩ := positive_bounds hquantity
  exact ⟨hpaid, hpos, hmax⟩

end Arguments

/-- The arguments that ask for `n` ticks. -/
def ticksArguments (n : Int64) : List String := ["advance", "--ticks", Text.ofInt n.toInt]

theorem ofList_ticksArguments (n : Int64) :
    Arguments.ofList (ticksArguments n) = .ok ⟨"advance", [(.ticks, Text.ofInt n.toInt)]⟩ := rfl

/-- A decimal text is judged as the number itself. -/
theorem toCommand_ticksArguments (n : Int64) (cfg : EngineConfig) :
    (⟨"advance", [(.ticks, Text.ofInt n.toInt)]⟩ : Arguments).toCommand cfg =
      Command.advance <$> checkRange "ticks" n 1 (Int64.ofNat cfg.maxTicksPerRequest.toNat) := by
  have hvalue : (⟨"advance", [(.ticks, Text.ofInt n.toInt)]⟩ : Arguments).value? .ticks =
      some (Text.ofInt n.toInt) := rfl
  have hraw : (Text.ofInt n.toInt).toList = [] ++ (Text.ofInt n.toInt).toList ++ [] := by simp
  rw [Arguments.toCommand_of_advance rfl, Arguments.boundedInt, hvalue]
  exact congrArg _ (readBoundedInt_padded (List.forall_mem_nil _) (List.forall_mem_nil _) hraw _ _ _)

theorem accepts_ticksArguments {n : Int64} {c : Command} : Accepts cfg (ticksArguments n) c ↔
    Within 1 (Int64.ofNat cfg.maxTicksPerRequest.toNat) n ∧ c = .advance n := by
  constructor
  · rintro ⟨a, ha, hc⟩
    cases (ofList_ticksArguments n).symm.trans ha
    rw [toCommand_ticksArguments] at hc
    obtain ⟨v, hv, rfl⟩ := Check.map_ok.1 hc
    obtain ⟨hn, rfl⟩ := checkRange_ok.1 hv
    exact ⟨hn, rfl⟩
  · rintro ⟨hn, rfl⟩
    refine ⟨_, ofList_ticksArguments n, ?_⟩
    rw [toCommand_ticksArguments, Check.map_ok]
    exact ⟨n, checkRange_ok.2 ⟨hn, rfl⟩, rfl⟩

/-- What is accepted as arguments is accepted by the engine. Whatever list of arguments comes to a number of ticks,
the engine takes the same number. The decimal text of a word is accepted as a number of ticks exactly if the engine
accepts the word, as the same command, and refused exactly for the cause that the engine gives. And an order that
is accepted as arguments is in no world refused as a request, nor for a quantity that cannot be counted. -/
theorem boundaries_agree (cfg : EngineConfig) (hcfg : cfg.check = .ok ()) :
    (∀ args n, Accepts cfg args (.advance n) →
      checkTicks n cfg = .ok n.toInt.toNat ∧ (n.toInt.toNat : Int) = n.toInt) ∧
    (∀ n, ((∃ c, Accepts cfg (ticksArguments n) c) ↔ ∃ ticks, checkTicks n cfg = .ok ticks) ∧
      (∀ c, Accepts cfg (ticksArguments n) c → c = .advance n) ∧
      ∃ a, Arguments.ofList (ticksArguments n) = .ok a ∧
        ∀ e, a.toCommand cfg = .error e ↔ checkTicks n cfg = .error (.invalidRequest (.rule e))) ∧
    ∀ args r, Accepts cfg args (.order r) → ∀ w,
      (∀ cause, planOrder w r ≠ .error (.invalidRequest cause)) ∧
        planOrder w r ≠ .error (.overflow .notionalQuantity) := by
  have hone : (1 : Int64).toInt = 1 := by decide
  refine ⟨?_, fun n => ⟨?_, fun c hc => (accepts_ticksArguments.1 hc).2, _, ofList_ticksArguments n, fun e => ?_⟩, ?_⟩
  · rintro args n ⟨a, -, ha⟩
    rw [Arguments.toCommand_of_advance (Arguments.command_advance ha)] at ha
    obtain ⟨v, hv, heq⟩ := Check.map_ok.1 ha
    cases heq
    have hwithin := Arguments.boundedInt_within (EngineConfig.within_one hcfg) hv
    have hlow := hwithin.1
    exact ⟨checkTicks_ok.2 ⟨hwithin, rfl⟩, by omega⟩
  · constructor
    · rintro ⟨c, hc⟩
      exact ⟨_, checkTicks_ok.2 ⟨(accepts_ticksArguments.1 hc).1, rfl⟩⟩
    · rintro ⟨ticks, hticks⟩
      exact ⟨_, accepts_ticksArguments.2 ⟨(checkTicks_ok.1 hticks).1, rfl⟩⟩
  · rw [toCommand_ticksArguments, Check.map_error, checkTicks_error]
  · rintro args r ⟨a, -, ha⟩ w
    have hr := Arguments.orderRequest_wellFormed (Arguments.command_order ha)
    exact ⟨fun cause h => (nomatch planOrder_error hr h), fun h => (nomatch planOrder_error hr h)⟩

/-- The last of two numbers of ticks, up to the limit, and an order for as many units as can be counted, given in no
particular order: the engine takes the ticks, and no world refuses the order as a request. -/
theorem boundaries_agree_default : ({} : EngineConfig).check = .ok () ∧
    Accepts {} ["advance", "--ticks", "7", "--db", "a.db", "--ticks", " +0010000"] (.advance 10000) ∧
    checkTicks 10000 {} = .ok (10000 : Int64).toInt.toNat ∧
    (∃ ticks, checkTicks 10000 {} = .ok ticks) ∧ (∃ c, Accepts {} (ticksArguments 10000) c) ∧
    Accepts {} ["order", "--qty", "0", "--item", "3", "--side", " BUY", "--company", "1", "--price", "10",
      "--qty", "9223372036854775807", "--region", "2"]
      (.order ⟨⟨1⟩, ⟨2⟩, ⟨3⟩, .buy, 10, 9223372036854775807⟩) ∧
    ∀ w cause, planOrder w ⟨⟨1⟩, ⟨2⟩, ⟨3⟩, .buy, 10, 9223372036854775807⟩ ≠ .error (.invalidRequest cause) := by
  have hcfg : ({} : EngineConfig).check = .ok () := by decide
  have hticks : Accepts {} ["advance", "--ticks", "7", "--db", "a.db", "--ticks", " +0010000"]
      (.advance 10000) := ⟨_, rfl, by decide +kernel⟩
  have horder : Accepts {} ["order", "--qty", "0", "--item", "3", "--side", " BUY", "--company", "1", "--price",
      "10", "--qty", "9223372036854775807", "--region", "2"]
      (.order ⟨⟨1⟩, ⟨2⟩, ⟨3⟩, .buy, 10, 9223372036854775807⟩) := ⟨_, rfl, by decide +kernel⟩
  obtain ⟨hengine, hjudged, hplanned⟩ := boundaries_agree {} hcfg
  have hchecked := (hengine _ _ hticks).1
  exact ⟨hcfg, hticks, hchecked, ⟨_, hchecked⟩, (hjudged 10000).1.2 ⟨_, hchecked⟩, horder,
    fun w => (hplanned _ _ horder w).1⟩

end CommandLine

end Mercantile
