import Mercantile.Proofs.Results

/-!
Rounded decimals against exact numbers. A result is within half a unit of its last digit of the exact one, and
it has as many digits as fit, so rounding never takes it below a whole number that it has reached
(`le_of_fit?`), and takes it up to the next one only from very close by (`exists_fit_floor`). Multipliers are
hundredths, which stay clear of whole numbers: progress and fees at an allocated share are the exact figures,
rounded down, for every rate and quantity (`rates_exact`).
-/

theorem UInt32.toNat_max_one (a : UInt32) : (max a 1).toNat = max 1 a.toNat := by
  have hone : (1 : UInt32).toNat = 1 := rfl
  show (if a ≤ 1 then 1 else a).toNat = max 1 a.toNat
  split
  · next hle =>
    have := UInt32.le_iff_toNat_le.1 hle
    omega
  · next hlt =>
    have := UInt32.lt_iff_toNat_lt.1 (UInt32.not_le.1 hlt)
    omega

namespace Mercantile

namespace Decimal

variable {tie : Tie} {x : Rat} {n : Int} {d : Nat} {places : Nat}

theorem roundQuotient_cases (tie : Tie) (n : Int) (d : Nat) :
    roundQuotient tie n d = n / d ∧ 2 * (n % d) ≤ d ∨
      roundQuotient tie n d = n / d + 1 ∧ (d : Int) ≤ 2 * (n % d) := by
  simp only [roundQuotient]
  split
  · omega
  · split
    · omega
    · split <;> split <;> omega

/-- Half way between two integers the even one is taken. -/
theorem roundQuotient_even (h : 2 * (n % d) = d) : roundQuotient .even n d % 2 = 0 := by
  simp only [roundQuotient, h, lt_irrefl, if_false]
  split <;> omega

/-- A rounded quotient is at most one half away from the exact one. -/
theorem roundQuotient_near (tie : Tie) (n : Int) (hd : 0 < d) :
    (2 * roundQuotient tie n d - 1) * d ≤ 2 * n ∧ 2 * n ≤ (2 * roundQuotient tie n d + 1) * d := by
  have hsplit : (d : Int) * (n / d) + n % d = n := Int.mul_ediv_add_emod n d
  have hlow : 0 ≤ n % d := Int.emod_nonneg _ (by omega)
  have hhigh : n % d < d := Int.emod_lt_of_pos _ (by omega)
  rcases roundQuotient_cases tie n d with ⟨hround, hrest⟩ | ⟨hround, hrest⟩
  · rw [hround]
    constructor <;> linarith
  · rw [hround]
    constructor <;> linarith

/-- What is half way to an even integer is rounded to it, or further. -/
theorem le_roundQuotient {m : Int} (hd : 0 < d) (hm : m % 2 = 0) (h : (2 * m - 1) * d ≤ 2 * n) :
    m ≤ roundQuotient .even n d := by
  have hpos : (0 : Int) < d := by omega
  have hsplit : (d : Int) * (n / d) + n % d = n := Int.mul_ediv_add_emod n d
  have hhigh : n % d < d := Int.emod_lt_of_pos _ hpos
  have hnear := (roundQuotient_near .even n hd).2
  have hle : 2 * m - 1 ≤ 2 * roundQuotient .even n d + 1 := le_of_mul_le_mul_right (h.trans hnear) hpos
  by_contra hlt
  -- only the odd integer below is left, and that would be a tie
  have hbelow : roundQuotient .even n d = m - 1 := by omega
  have hhalf : (2 * m - 1) * d = 2 * n := by
    rw [hbelow] at hnear
    exact le_antisymm h (by linarith)
  have htie : 2 * (n % d) = d := by
    rcases roundQuotient_cases .even n d with ⟨hround, -⟩ | ⟨hround, -⟩
    · rw [← hround, hbelow] at hsplit
      linarith
    · have hquotient : n / d = m - 2 := by omega
      rw [hquotient] at hsplit
      linarith
  have heven := roundQuotient_even htie
  omega

/-- The mantissa of the nearest decimal with a number of fractional digits. -/
def mantissa (tie : Tie) (x : Rat) (places : Nat) : Int :=
  roundQuotient tie (x.num * Text.tenTo places) x.den

theorem tenTo_eq (places : Nat) : ((Text.tenTo places : Nat) : Rat) = 10 ^ places := by
  rw [Text.tenTo, Nat.pow_eq, Nat.cast_pow, Nat.cast_ofNat]

theorem fitAt?_eq_some {y : Decimal} : fitAt? tie x places = some y ↔
    (mantissa tie x places).natAbs < mantissaSize ∧ y = mantissa tie x places / 10 ^ places := by
  simp only [fitAt?, Option.ite_none_right_eq_some, Option.some_inj, Rat.mkRat_eq_div, tenTo_eq]
  exact and_congr_right fun _ => eq_comm

/-- Twice the scaled number over the denominator, for comparisons with rounded quotients. -/
theorem scaled_eq (x : Rat) (places : Nat) :
    (2 * (x * 10 ^ places)) * x.den = ((2 * (x.num * Text.tenTo places) : Int) : Rat) := by
  have hnum : x * x.den = x.num := Rat.mul_den_eq_num x
  push_cast
  rw [tenTo_eq, ← hnum]
  ring

theorem mantissa_le (tie : Tie) (x : Rat) (places : Nat) :
    (mantissa tie x places : Rat) ≤ x * 10 ^ places + 1 / 2 := by
  have hden : (0 : Rat) < x.den := by exact_mod_cast x.den_pos
  have hnear := (roundQuotient_near tie (x.num * Text.tenTo places) x.den_pos).1
  have hscaled : ((2 * mantissa tie x places - 1 : Int) : Rat) * x.den ≤ (2 * (x * 10 ^ places)) * x.den := by
    rw [scaled_eq]
    exact_mod_cast hnear
  have hle := le_of_mul_le_mul_right hscaled hden
  push_cast at hle
  linarith

theorem le_mantissa (tie : Tie) (x : Rat) (places : Nat) :
    x * 10 ^ places ≤ (mantissa tie x places : Rat) + 1 / 2 := by
  have hden : (0 : Rat) < x.den := by exact_mod_cast x.den_pos
  have hnear := (roundQuotient_near tie (x.num * Text.tenTo places) x.den_pos).2
  have hscaled : (2 * (x * 10 ^ places)) * x.den ≤ ((2 * mantissa tie x places + 1 : Int) : Rat) * x.den := by
    rw [scaled_eq]
    exact_mod_cast hnear
  have hle := le_of_mul_le_mul_right hscaled hden
  push_cast at hle
  linarith

/-- A whole number that is reached is not rounded away. -/
theorem le_mantissa_of_le {m : Int} (h : (m : Rat) ≤ x * 10 ^ places) : m ≤ mantissa tie x places := by
  have hlt : (m : Rat) < ((mantissa tie x places + 1 : Int) : Rat) := by
    have := le_mantissa tie x places
    push_cast
    linarith
  exact Int.lt_add_one_iff.1 (by exact_mod_cast hlt)

theorem mantissa_lt_of_lt {m : Int} (h : x * 10 ^ places + 1 / 2 < m) : mantissa tie x places < m := by
  exact_mod_cast (mantissa_le tie x places).trans_lt h

/-- An even whole number is reached from one half below. -/
theorem le_mantissa_of_even {m : Int} (hm : m % 2 = 0) (h : (m : Rat) ≤ x * 10 ^ places + 1 / 2) :
    m ≤ mantissa .even x places := by
  have hden : (0 : Rat) ≤ x.den := Nat.cast_nonneg _
  have hscaled : ((2 * m - 1 : Int) : Rat) * x.den ≤ (2 * (x * 10 ^ places)) * x.den := by
    refine mul_le_mul_of_nonneg_right ?_ hden
    push_cast
    linarith
  rw [scaled_eq] at hscaled
  exact le_roundQuotient x.den_pos hm (by exact_mod_cast hscaled)

theorem fitWithin?_eq_some {y : Decimal} : fitWithin? tie x places = some y ↔
    ∃ p ≤ places, fitAt? tie x p = some y ∧ ∀ q, p < q → q ≤ places → fitAt? tie x q = none := by
  induction places with
  | zero =>
      constructor
      · intro h
        exact ⟨0, le_refl 0, h, fun q hq hq' => by omega⟩
      · rintro ⟨p, hp, h, -⟩
        obtain rfl : p = 0 := by omega
        exact h
  | succ places ih =>
      rw [fitWithin?, Option.or_eq_some_iff, ih]
      constructor
      · rintro (h | ⟨hnone, p, hp, h, hlonger⟩)
        · exact ⟨places + 1, le_refl _, h, fun q hq hq' => by omega⟩
        · refine ⟨p, by omega, h, fun q hq hq' => ?_⟩
          rcases Nat.lt_or_eq_of_le hq' with hlt | rfl
          · exact hlonger q hq (by omega)
          · exact hnone
      · rintro ⟨p, hp, h, hlonger⟩
        rcases Nat.lt_or_eq_of_le hp with hlt | rfl
        · exact Or.inr ⟨hlonger _ hlt (le_refl _), p, by omega, h, fun q hq hq' => hlonger q hq (by omega)⟩
        · exact Or.inl h

/-- Rounding comes to rest at the most digits with which the mantissa fits. -/
theorem fit?_eq_some {y : Decimal} : fit? x = some y ↔
    ∃ p ≤ 28, (mantissa .even x p).natAbs < mantissaSize ∧ y = mantissa .even x p / 10 ^ p ∧
      ∀ q, p < q → q ≤ 28 → mantissaSize ≤ (mantissa .even x q).natAbs := by
  have hnone (q : Nat) : fitAt? .even x q = none ↔ mantissaSize ≤ (mantissa .even x q).natAbs := by
    rw [← not_lt]
    exact ite_eq_right_iff.trans (imp_congr_right fun _ => by simp)
  simp only [fit?, fitWithin?_eq_some, fitAt?_eq_some, hnone, and_assoc]

theorem mantissa_intCast (tie : Tie) (n : Int) (places : Nat) :
    mantissa tie n places = n * Text.tenTo places := by
  have hcast : ((n * Text.tenTo places : Int) : Rat) = (n : Rat) * 10 ^ places := by
    push_cast
    rw [tenTo_eq]
  refine le_antisymm (Int.lt_add_one_iff.1 (mantissa_lt_of_lt ?_)) (le_mantissa_of_le hcast.le)
  push_cast
  rw [tenTo_eq]
  linarith

/-- A whole number is a decimal if its digits fit. -/
theorem fit?_intCast (n : Int) : fit? n = if n.natAbs < mantissaSize then some (n : Rat) else none := by
  have hexact {y : Decimal} (h : fit? n = some y) : n.natAbs < mantissaSize ∧ y = n := by
    obtain ⟨p, -, hsize, rfl, -⟩ := fit?_eq_some.1 h
    rw [mantissa_intCast] at hsize ⊢
    have hten : 0 < Text.tenTo p := Nat.pow_pos (by norm_num)
    have hpow : (10 : Rat) ^ p ≠ 0 := by positivity
    refine ⟨?_, ?_⟩
    · rw [Int.natAbs_mul, Int.natAbs_natCast] at hsize
      exact (Nat.le_mul_of_pos_right _ hten).trans_lt hsize
    · push_cast
      rw [tenTo_eq, mul_div_assoc, div_self hpow, mul_one]
  split
  · next hsize =>
    have hwhole : fitAt? .even n 0 = some ((n : Rat) * Text.tenTo 0 / 10 ^ 0) := by
      rw [fitAt?_eq_some, mantissa_intCast]
      exact ⟨by simpa [Text.tenTo] using hsize, by push_cast; rfl⟩
    obtain ⟨y, hy⟩ := exists_fitWithin (Nat.zero_le 28) hwhole
    exact hy.trans (congrArg some (hexact hy).2)
  · next hsize => exact Option.eq_none_iff_forall_ne_some.2 fun y hy => hsize (hexact hy).1

/-- No rounding goes below a whole number. -/
theorem le_of_fit? {m : Int} {y : Decimal} (hm : (m : Rat) ≤ x) (h : fit? x = some y) : (m : Rat) ≤ y := by
  obtain ⟨p, -, -, rfl, -⟩ := fit?_eq_some.1 h
  have hpow : (0 : Rat) < 10 ^ p := by positivity
  have hscaled : ((m * Text.tenTo p : Int) : Rat) ≤ x * 10 ^ p := by
    push_cast
    rw [tenTo_eq]
    exact mul_le_mul_of_nonneg_right hm hpow.le
  have hreached : ((m * Text.tenTo p : Int) : Rat) ≤ mantissa .even x p := by
    exact_mod_cast le_mantissa_of_le hscaled
  push_cast at hreached
  rw [tenTo_eq] at hreached
  exact (le_div_iff₀ hpow).2 hreached

/-- Half a unit of a later digit is smaller. -/
theorem half_unit_le {p q : Nat} (hpq : p ≤ q) : (1 : Rat) / (2 * 10 ^ q) ≤ 1 / (2 * 10 ^ p) := by
  refine one_div_le_one_div_of_le (by positivity) ?_
  exact mul_le_mul_of_nonneg_left (pow_le_pow_right₀ (by norm_num) hpq) (by norm_num)

/-- Where `p` fractional digits fit, and the next whole number is further off than half a unit of the last of
them, rounding does not show in the whole part. -/
theorem exists_fit_floor {p : Nat} (hp : p ≤ 28) (hx : 0 ≤ x) (hsize : x * 10 ^ p + 1 / 2 < mantissaSize)
    (hclear : x + 1 / (2 * 10 ^ p) < x.floor + 1) : ∃ y, fit? x = some y ∧ y.floor = x.floor := by
  have hfits : (mantissa .even x p).natAbs < mantissaSize := by
    have hnonneg : 0 ≤ mantissa .even x p := le_mantissa_of_le (by rw [Int.cast_zero]; positivity)
    have hlt : mantissa .even x p < (mantissaSize : Int) := mantissa_lt_of_lt (by exact_mod_cast hsize)
    omega
  obtain ⟨y, hy⟩ := exists_fitWithin hp (fitAt?_eq_some.2 ⟨hfits, rfl⟩)
  refine ⟨y, hy, le_antisymm ?_ (Rat.le_floor_iff.2 (le_of_fit? (Rat.floor_le x) hy))⟩
  obtain ⟨q, hq, -, rfl, hlonger⟩ := fit?_eq_some.1 hy
  have hpq : p ≤ q := not_lt.1 fun hlt => absurd hfits (not_lt.2 (hlonger p hlt hp))
  have hpow : (0 : Rat) < 10 ^ q := by positivity
  have herror : (mantissa .even x q : Rat) / 10 ^ q ≤ x + 1 / (2 * 10 ^ p) := by
    have hle : (mantissa .even x q : Rat) / 10 ^ q ≤ (x * 10 ^ q + 1 / 2) / 10 ^ q :=
      div_le_div_of_nonneg_right (mantissa_le .even x q) hpow.le
    have hsplit : (x * 10 ^ q + 1 / 2) / 10 ^ q = x + 1 / (2 * 10 ^ q) := by field_simp
    linarith [half_unit_le hpq]
  exact Int.lt_add_one_iff.1 (Rat.floor_lt_iff.2 (by push_cast; linarith))

/-- The whole part of a quotient is the integer quotient. -/
theorem floor_div (n l : Nat) : ((n : Rat) / l).floor = ((n / l : Nat) : Int) := by
  have hfloor := Rat.floor_intCast_div_natCast n l
  push_cast at hfloor ⊢
  exact hfloor

/-- A quotient by a divisor that is small against the digits that fit keeps its whole part. -/
theorem exists_fit_div {n l p : Nat} (hl : 0 < l) (hlp : l < 2 * 10 ^ p) (hp : p ≤ 28)
    (hsize : (n / l + 1) * 10 ^ p < mantissaSize) :
    ∃ y, fit? ((n : Rat) / l) = some y ∧ y.floor = ((n / l : Nat) : Int) := by
  have hpos : (0 : Rat) < l := by exact_mod_cast hl
  have hunit : (0 : Rat) < 1 / l := by positivity
  have hgap : (n : Rat) / l + 1 / l ≤ (n / l : Nat) + 1 := by
    rw [← add_div, div_le_iff₀ hpos]
    exact_mod_cast Nat.lt_mul_of_div_lt (Nat.lt_succ_self _) hl
  have hsize' : ((n / l : Nat) + 1 : Rat) * 10 ^ p < mantissaSize := by exact_mod_cast hsize
  have hfine : (1 : Rat) / (2 * 10 ^ p) < 1 / l := one_div_lt_one_div_of_lt hpos (by exact_mod_cast hlp)
  rw [← floor_div]
  refine exists_fit_floor hp (by positivity) ?_ ?_
  · have hscaled : 1 / (2 * 10 ^ p : Rat) * 10 ^ p = 1 / 2 := by field_simp
    have hle : ((n : Rat) / l + 1 / (2 * 10 ^ p)) * 10 ^ p ≤ ((n / l : Nat) + 1) * 10 ^ p :=
      mul_le_mul_of_nonneg_right (by linarith) (by positivity)
    rw [add_mul, hscaled] at hle
    exact hle.trans_lt hsize'
  · rw [floor_div, Int.cast_natCast]
    linarith

end Decimal

/-- A multiplier in hundredths, where it is above the floor. -/
def share (pct : UInt8) (cfg : WorkforceConfig) : Nat := 100 + pct.toNat - cfg.baselinePct.toNat

theorem multiplier_eq_share {pct : UInt8} {cfg : WorkforceConfig} (hbase : cfg.baselinePct ≤ 100)
    (hshare : cfg.minMultiplier ≤ mkRat (share pct cfg) 100) : multiplier pct cfg = (share pct cfg : Rat) / 100 := by
  have hle : cfg.baselinePct.toNat ≤ 100 := UInt8.le_iff_toNat_le.1 hbase
  have hnum : (100 + pct.toNat - cfg.baselinePct.toNat : Int) = share pct cfg := by
    rw [share]
    omega
  simp only [multiplier, hnum]
  rw [if_neg (not_lt.2 hshare), Rat.mkRat_eq_div]
  push_cast
  rfl

theorem share_pos {pct : UInt8} {cfg : WorkforceConfig} (hfloor : 0 < cfg.minMultiplier)
    (hshare : cfg.minMultiplier ≤ mkRat (share pct cfg) 100) : 0 < share pct cfg := by
  by_contra hzero
  obtain hzero : share pct cfg = 0 := by omega
  rw [hzero] at hshare
  exact absurd (hfloor.trans_le hshare) (by decide)

theorem share_le (pct : UInt8) (cfg : WorkforceConfig) : share pct cfg ≤ 355 := by
  have hlt := pct.toNat_lt
  rw [share]
  omega

theorem deliveryFee_ok {cfg : LogisticsConfig} {q : Quantity} {m : Decimal} {fee : Cents} :
    deliveryFee cfg q m = .ok fee ↔ (cfg.feePerUnit.toInt * q.toNat).natAbs < Decimal.mantissaSize ∧ m ≠ 0 ∧
      ∃ y, Decimal.fit? ((cfg.feePerUnit.toInt * q.toNat : Int) / m) = some y ∧ fee.toInt = y.floor := by
  have hgross : Decimal.mul? cfg.feePerUnit.toInt q.toNat =
      Decimal.fit? ((cfg.feePerUnit.toInt * q.toNat : Int) : Rat) := by
    rw [Decimal.mul?]
    push_cast
    rfl
  simp only [deliveryFee, orFail_ok, Option.bind_eq_bind, Option.bind_eq_some_iff, Int64.ofInt?_eq_some, hgross,
    Decimal.fit?_intCast, Decimal.div?, Option.ite_none_left_eq_some, Option.ite_none_right_eq_some,
    Option.some_inj]
  constructor
  · rintro ⟨_, ⟨hsize, rfl⟩, y, ⟨hm, hy⟩, hfee⟩
    exact ⟨hsize, hm, y, hy, hfee⟩
  · rintro ⟨hsize, hm, y, hy, hfee⟩
    exact ⟨_, ⟨hsize, rfl⟩, y, ⟨hm, hy⟩, hfee⟩

/-- A fee that is no number of cents is an overflow. -/
theorem deliveryFee_eq_error {cfg : LogisticsConfig} {q : Quantity} {m : Decimal}
    (h : ∀ fee, deliveryFee cfg q m ≠ .ok fee) : deliveryFee cfg q m = .error (.overflow .deliveryFee) := by
  cases hfee : deliveryFee cfg q m with
  | ok fee => exact absurd hfee (h fee)
  | error e => rw [(orFail_error.1 hfee).2]

/-- Progress is the whole part of the product as far as it is a word, and one at least. -/
theorem progressStep_of_product {base : UInt32} {m y : Decimal} {n : Nat}
    (h : Decimal.mul? base.toNat m = some y) (hn : y.floor = n) :
    ∃ amount, progressStep base m = .ok amount ∧ amount.toNat = max 1 (min 4294967295 n) := by
  refine ⟨_, by rw [progressStep, h]; rfl, ?_⟩
  have hsize : UInt32.size = 4294967296 := rfl
  rw [UInt32.toNat_max_one, hn]
  split
  · next hword =>
    rw [Int.toNat_natCast, UInt32.toNat_ofNat_of_lt' (by omega)]
    omega
  · next hlarge =>
    rw [UInt32.toNat_ofNat_of_lt' (by omega)]
    omega

theorem progressStep_share (base : UInt32) {l : Nat} (hl : l ≤ 355) :
    ∃ amount, progressStep base ((l : Rat) / 100) = .ok amount ∧
      amount.toNat = max 1 (min 4294967295 (base.toNat * l / 100)) := by
  have hproduct : Decimal.mul? base.toNat ((l : Rat) / 100) =
      Decimal.fit? (((base.toNat * l : Nat) : Rat) / (100 : Nat)) := by
    rw [Decimal.mul?]
    push_cast
    rw [mul_div_assoc]
  have hsize : (base.toNat * l / 100 + 1) * 10 ^ 2 < Decimal.mantissaSize := by
    have hbase := base.toNat_lt
    have hle : base.toNat * l ≤ 2 ^ 32 * 355 := Nat.mul_le_mul hbase.le hl
    rw [Decimal.mantissaSize]
    omega
  obtain ⟨y, hy, hwhole⟩ := Decimal.exists_fit_div (p := 2) (by norm_num) (by norm_num) (by norm_num) hsize
  exact progressStep_of_product (hproduct.trans hy) hwhole

/-- A gross fee whose quotient is a number of cents is small enough for the quotient to be rounded at the third
place, which is finer than a part in the share. -/
theorem exists_fit_share {g l : Nat} (hpos : 0 < l) (hl : l ≤ 355) (h : 100 * g / l < 2 ^ 63) :
    g < Decimal.mantissaSize ∧
      ∃ y, Decimal.fit? (((100 * g : Nat) : Rat) / l) = some y ∧ y.floor = ((100 * g / l : Nat) : Int) := by
  have hgross : 100 * g < 2 ^ 63 * 355 := by
    calc 100 * g < (100 * g / l + 1) * l := Nat.lt_mul_of_div_lt (Nat.lt_succ_self _) hpos
      _ ≤ 2 ^ 63 * 355 := Nat.mul_le_mul h hl
  have hsize : (100 * g / l + 1) * 10 ^ 3 < Decimal.mantissaSize := by
    rw [Decimal.mantissaSize]
    omega
  refine ⟨by rw [Decimal.mantissaSize]; omega, ?_⟩
  exact Decimal.exists_fit_div hpos (by omega) (by norm_num) hsize

theorem deliveryFee_share {cfg : LogisticsConfig} {q : Quantity} {fee : Cents} {l : Nat} (hpos : 0 < l)
    (hl : l ≤ 355) (hunit : 0 ≤ cfg.feePerUnit) :
    deliveryFee cfg q ((l : Rat) / 100) = .ok fee ↔ fee.toInt = 100 * cfg.feePerUnit.toInt * q.toNat / l := by
  obtain ⟨g, hg⟩ : ∃ g : Nat, cfg.feePerUnit.toInt * q.toNat = g :=
    Int.eq_ofNat_of_zero_le (Int.mul_nonneg (Int64.le_iff_toInt_le.1 hunit) (Int.natCast_nonneg _))
  have hquotient : ((g : Int) : Rat) / ((l : Rat) / 100) = ((100 * g : Nat) : Rat) / l := by
    push_cast
    rw [div_div_eq_mul_div, mul_comm]
  have hexact : (100 * (g : Int) / l) = ((100 * g / l : Nat) : Int) := by push_cast; rfl
  have hshare : (l : Rat) / 100 ≠ 0 := by positivity
  have hmax := Int64.toInt_maxValue
  have hle := fee.toInt_le
  rw [deliveryFee_ok, mul_assoc, hg, hquotient, hexact, Int.natAbs_natCast]
  constructor
  · rintro ⟨-, -, y, hy, hfee⟩
    have hwhole : ((100 * g / l : Nat) : Int) ≤ y.floor := by
      rw [← Decimal.floor_div]
      exact Rat.le_floor_iff.2 (Decimal.le_of_fit? (Rat.floor_le _) hy)
    obtain ⟨-, z, hz, hfloor⟩ := exists_fit_share (g := g) hpos hl (by omega)
    rw [hy, Option.some_inj] at hz
    rw [hfee, hz, hfloor]
  · intro hfee
    obtain ⟨hsize, y, hy, hfloor⟩ := exists_fit_share (g := g) hpos hl (by omega)
    exact ⟨hsize, hshare, y, hy, hfee.trans hfloor.symm⟩

/-- Progress and fees at an allocated share are the exact figures, rounded down. Progress is one at least and the
largest word at most, and a fee overflows exactly if the exact figure is no number of cents. -/
theorem rates_exact {pct : UInt8} {cfg : WorkforceConfig} (hbase : cfg.baselinePct ≤ 100)
    (hfloor : 0 < cfg.minMultiplier) (hshare : cfg.minMultiplier ≤ mkRat (share pct cfg) 100) :
    (∀ base : UInt32, ∃ amount : UInt32, progressStep base (multiplier pct cfg) = .ok amount ∧
      amount.toNat = max 1 (min 4294967295 (base.toNat * share pct cfg / 100))) ∧
    ∀ (logistics : LogisticsConfig) (q : Quantity), 0 ≤ logistics.feePerUnit →
      let exact := 100 * logistics.feePerUnit.toInt * q.toNat / share pct cfg
      (exact ≤ Int64.maxValue.toInt → ∃ fee, deliveryFee logistics q (multiplier pct cfg) = .ok fee ∧
        fee.toInt = exact) ∧
      (Int64.maxValue.toInt < exact →
        deliveryFee logistics q (multiplier pct cfg) = .error (.overflow .deliveryFee)) := by
  have hpos := share_pos hfloor hshare
  have hle := share_le pct cfg
  rw [multiplier_eq_share hbase hshare]
  refine ⟨fun base => progressStep_share base hle, fun logistics q hunit => ?_⟩
  have hnonneg : 0 ≤ 100 * logistics.feePerUnit.toInt * q.toNat / share pct cfg := by
    have hfee : 0 ≤ logistics.feePerUnit.toInt := Int64.le_iff_toInt_le.1 hunit
    positivity
  intro exact
  constructor
  · intro hfits
    have hmin : Int64.minValue.toInt ≤ exact := le_trans (by decide) hnonneg
    have hfee : (Int64.ofInt exact).toInt = exact :=
      Int64.toInt_ofInt_of_le hmin (Int.lt_of_le_of_lt hfits Int64.maxValue.toInt_lt)
    exact ⟨Int64.ofInt exact, (deliveryFee_share hpos hle hunit).2 hfee, hfee⟩
  · intro hlarge
    refine deliveryFee_eq_error fun fee h => ?_
    have hfee : fee.toInt = exact := (deliveryFee_share hpos hle hunit).1 h
    exact absurd fee.toInt_le (not_le.2 (hfee ▸ hlarge))

/-- At three hundredths a fee just below the largest number of cents is rounded down by two thirds of a cent, and
the fee for two units more overflows. -/
theorem rates_exact_thirds : let cfg : WorkforceConfig := ⟨100, mkRat 1 100⟩
    cfg.baselinePct ≤ 100 ∧ 0 < cfg.minMultiplier ∧ cfg.minMultiplier ≤ mkRat (share 3 cfg) 100 ∧
      (∃ amount, progressStep 4294967295 (multiplier 3 cfg) = .ok amount ∧ amount.toNat = 128849018) ∧
      (∃ fee, deliveryFee { feePerUnit := 1 } 276701161105643273 (multiplier 3 cfg) = .ok fee ∧
        fee.toInt = 9223372036854775766) ∧
      deliveryFee { feePerUnit := 1 } 276701161105643275 (multiplier 3 cfg) = .error (.overflow .deliveryFee) := by
  intro cfg
  have hbase : cfg.baselinePct ≤ 100 := by decide
  have hfloor : 0 < cfg.minMultiplier := by decide
  have hshare : cfg.minMultiplier ≤ mkRat (share 3 cfg) 100 := by decide
  obtain ⟨hprogress, hfees⟩ := rates_exact hbase hfloor hshare
  have hfits : 100 * (1 : Int64).toInt * ((276701161105643273 : UInt64).toNat : Int) / (share 3 cfg : Nat) =
      9223372036854775766 := by decide
  refine ⟨hbase, hfloor, hshare, ?_, ?_, ?_⟩
  · obtain ⟨amount, hamount, hexact⟩ := hprogress 4294967295
    exact ⟨amount, hamount, hexact.trans (by decide)⟩
  · obtain ⟨fee, hfee, hexact⟩ := (hfees { feePerUnit := 1 } 276701161105643273 (by decide)).1 (by decide)
    exact ⟨fee, hfee, hexact.trans hfits⟩
  · exact (hfees { feePerUnit := 1 } 276701161105643275 (by decide)).2 (by decide)

end Mercantile
