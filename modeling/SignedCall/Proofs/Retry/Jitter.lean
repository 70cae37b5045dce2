import SignedCall.Proofs.Number.Rounding
import SignedCall.Retry.Backoff

/-!
# The waits of a strategy with jitter

A wait is a whole number of milliseconds from the least one up, and how far up is what a draw makes of their number
(`Jitter.wait?`): the whole part of the product, kept below the number itself. The draws of a strategy are numbers of double
precision, whose products are rounded (`Backoff.wholePart?`); a draw that is a fraction of its own has exact ones
(`Backoff.exactPart?`). With either, waits stay within the jitter's bounds and grow with the draw (`Jitter.delays_bounded`).
-/

namespace SignedCall

namespace Backoff

variable {base maximum : Int} {cap : Nat}

/-! ## Ceilings -/

/-- Ceilings grow with the number of retries. -/
theorem ceiling_mono (hbase : 0 ≤ base) {n n' : Nat} (h : n ≤ n') : ceiling n cap base maximum ≤ ceiling n' cap base maximum := by
  have hpow : Nat.pow 2 (min n cap) ≤ Nat.pow 2 (min n' cap) :=
    Nat.pow_le_pow_right two_pos (min_le_min_right cap h)
  exact min_le_min_right maximum (mul_le_mul_of_nonneg_right (Int.ofNat_le.2 hpow) hbase)

/-- From the cap on ceilings stay the same. -/
theorem ceiling_of_le {retries : Nat} (h : cap ≤ retries) : ceiling retries cap base maximum = ceiling cap cap base maximum := by
  unfold ceiling
  rw [min_eq_right h, min_self]

/-- No ceiling is above the greatest delay. -/
theorem ceiling_le (retries cap : Nat) (base maximum : Int) : ceiling retries cap base maximum ≤ maximum := min_le_right _ _

/-- No ceiling is below zero. -/
theorem ceiling_nonneg (hbase : 0 ≤ base) (hmaximum : 0 ≤ maximum) (retries cap : Nat) : 0 ≤ ceiling retries cap base maximum :=
  le_min (mul_nonneg (Int.natCast_nonneg _) hbase) hmaximum

/-- Seconds that a strategy may be made with are not negative in milliseconds. -/
theorem millis_nonneg {seconds : Number} {n : Int} (hseconds : seconds.isNonpositive = false) (h : millis seconds = .ok n) :
    0 ≤ n := by
  cases seconds with
  | whole k =>
    have hk : 0 < k := by simpa [Number.isNonpositive] using hseconds
    obtain rfl : k * 1000 = n := by simpa [millis] using h
    omega
  | real x =>
    have hthousand : (Binary64.ofInt 1000).isNegative = false := by
      rw [Binary64.ofInt_of_pos (by decide)]
      exact Binary64.isNegative_ofRatio Nat.one_pos false
    have hsign : (x.mul (Binary64.ofInt 1000)).isNegative = false := by
      by_cases hnan : x = .nan
      · subst hnan
        cases Binary64.ofInt 1000 <;> rfl
      · refine Binary64.isNegative_mul ?_ hthousand
        simpa [Number.isNonpositive, hnan] using (Bool.or_eq_false_iff.1 hseconds).2
    simp only [millis] at h
    split at h
    · next n' hround =>
      obtain rfl : n' = n := Except.ok.inj h
      exact Binary64.round?_nonneg hsign hround
    · cases h

/-- The whole part of the product of a bound and a draw that is a fraction, both from zero up. -/
def exactPart? (draw : ℚ) (bound : Int) : Option Int := some ⌊draw * bound⌋

end Backoff

namespace Jitter

/-- The least wait under a ceiling. -/
def least : Jitter → Int → Int
  | .full, _ => 0
  | .equal, ceiling => ceiling / 2

/-- The number of waits under a ceiling. -/
def range : Jitter → Int → Int
  | .full, ceiling => ceiling
  | .equal, ceiling => ceiling / 2 + 1

/-- The wait under a ceiling, where the whole part of a bound's product with the draw is known; none if there is none. -/
def wait? (jitter : Jitter) (part? : Int → Option Int) (ceiling : Int) : Option Int :=
  if jitter.range ceiling ≤ 0 then some (jitter.least ceiling)
  else (part? (jitter.range ceiling)).map fun n => jitter.least ceiling + min n (jitter.range ceiling - 1)

/-- The draws that are left after a wait. -/
def left (jitter : Jitter) (ceiling : Int) (draws : Draws) : Draws :=
  if jitter.range ceiling ≤ 0 then draws else draws.next.2

/-- The waits that a ceiling allows: those below it, if it is not zero, or those from half of it to itself. -/
def Allows : Jitter → Int → Int → Prop
  | .full, ceiling, wait => 0 ≤ wait ∧ (wait < ceiling ∨ ceiling = 0 ∧ wait = 0)
  | .equal, ceiling, wait => ceiling / 2 ≤ wait ∧ wait ≤ ceiling

variable {jitter : Jitter} {ceiling : Int} {part? part'? : Int → Option Int}

/-- What a strategy draws under a ceiling is the wait for its next draw. -/
theorem drawMillis_eq (jitter : Jitter) (ceiling : Int) (draws : Draws) :
    BackoffStrategy.drawMillis jitter ceiling draws =
      match jitter.wait? (Backoff.wholePart? draws.next.1) ceiling with
      | some wait => .ok (wait, jitter.left ceiling draws)
      | none => .error .tooLarge := by
  unfold wait? left BackoffStrategy.drawMillis
  cases jitter with
  | full =>
    by_cases hempty : ceiling ≤ 0
    · simp [least, range, Backoff.drawBelow, hempty]
    · cases hpart : Backoff.wholePart? draws.next.1 ceiling <;> simp [least, range, Backoff.drawBelow, hempty, hpart]
  | equal =>
    by_cases hempty : ceiling / 2 + 1 ≤ 0
    · simp [least, range, Backoff.drawBelow, hempty, bind, Except.bind, pure, Except.pure]
    · cases hpart : Backoff.wholePart? draws.next.1 (ceiling / 2 + 1) <;>
        simp [least, range, Backoff.drawBelow, hempty, hpart, bind, Except.bind, pure, Except.pure]

/-- The whole part of a product that is not negative makes a wait that the ceiling allows. -/
theorem wait?_allows (hceiling : 0 ≤ ceiling) {n : Int} (hn : 0 ≤ n)
    (h : 0 < jitter.range ceiling → part? (jitter.range ceiling) = some n) :
    ∃ wait, jitter.wait? part? ceiling = some wait ∧ jitter.Allows ceiling wait := by
  unfold wait?
  by_cases hempty : jitter.range ceiling ≤ 0
  · refine ⟨_, if_pos hempty, ?_⟩
    cases jitter <;> simp only [range, least, Allows, and_true] at * <;> omega
  · rw [if_neg hempty, h (not_le.1 hempty)]
    refine ⟨_, rfl, ?_⟩
    cases jitter <;> simp only [range, least, Allows] at * <;> omega

/-- Larger whole parts make longer waits. -/
theorem wait?_le {n n' wait wait' : Int} (hn : n ≤ n') (h : 0 < jitter.range ceiling → part? (jitter.range ceiling) = some n)
    (h' : 0 < jitter.range ceiling → part'? (jitter.range ceiling) = some n') (hwait : jitter.wait? part? ceiling = some wait)
    (hwait' : jitter.wait? part'? ceiling = some wait') : wait ≤ wait' := by
  unfold wait? at hwait hwait'
  by_cases hempty : jitter.range ceiling ≤ 0
  · rw [if_pos hempty, Option.some.injEq] at hwait hwait'
    omega
  · rw [if_neg hempty, h (not_le.1 hempty), Option.map_some, Option.some.injEq] at hwait
    rw [if_neg hempty, h' (not_le.1 hempty), Option.map_some, Option.some.injEq] at hwait'
    omega

/-- The number of waits under a ceiling is not below zero. -/
theorem range_nonneg (hceiling : 0 ≤ ceiling) : 0 ≤ jitter.range ceiling := by
  cases jitter <;> simp only [range] <;> omega

/-- Two draws, the second one with the larger whole part, make waits that the ceiling allows, the second one no shorter. -/
theorem exists_waits (hceiling : 0 ≤ ceiling) {n n' : Int} (hn : 0 ≤ n) (hle : n ≤ n')
    (h : 0 < jitter.range ceiling → part? (jitter.range ceiling) = some n ∧ part'? (jitter.range ceiling) = some n') :
    ∃ k l, jitter.wait? part? ceiling = some k ∧ jitter.wait? part'? ceiling = some l ∧ jitter.Allows ceiling k ∧
      jitter.Allows ceiling l ∧ k ≤ l := by
  obtain ⟨k, hk, hkAllows⟩ := wait?_allows hceiling hn fun hrange => (h hrange).1
  obtain ⟨l, hl, hlAllows⟩ := wait?_allows hceiling (hn.trans hle) fun hrange => (h hrange).2
  exact ⟨k, l, hk, hl, hkAllows, hlAllows, wait?_le hle (fun hrange => (h hrange).1) (fun hrange => (h hrange).2) hk hl⟩

end Jitter

namespace Backoff

/-! ## Draws of double precision -/

/-- The whole part of the product of a bound and a draw of double precision is that of the rounded product of the draw and the
number nearest to the bound. -/
theorem wholePart?_real {x : Binary64} (hx : x.InUnit) {bound : Int} (hfinite : (Binary64.ofInt bound).isFinite = true)
    (hbound : 0 < bound) :
    0 ≤ (Binary64.ofInt bound).value ∧
      ∃ num den : Nat, 0 < den ∧ (num : ℚ) / den = x.value * (Binary64.ofInt bound).value ∧
        wholePart? (.real x) bound = some ⌊Binary64.rounded num den⌋ := by
  have hnum : 0 < bound.natAbs := Int.natAbs_pos.2 hbound.ne'
  have hofInt := Binary64.ofInt_of_pos hbound
  rw [hofInt] at hfinite ⊢
  rcases Binary64.ofRatio_cases hnum Nat.one_pos false with ⟨hlt, m, e, heq, hvalue, hm, he⟩ | ⟨-, heq⟩
  · obtain ⟨num, den, hden, hratio, htruncate⟩ := hx.truncate?_mul hm he (hvalue ▸ hlt)
    rw [heq]
    refine ⟨mul_nonneg (Nat.cast_nonneg m) (Binary64.two_zpow_pos e).le, num, den, hden, hratio, ?_⟩
    unfold wholePart?
    rw [hofInt, heq]
    exact htruncate
  · rw [heq] at hfinite
    cases hfinite

/-- A larger draw has the larger product, rounded or not. -/
theorem wholeParts_le {x y : Binary64} (hx : x.InUnit) (hy : y.InUnit) (hle : x.value ≤ y.value) {bound : Int}
    (hfinite : (Binary64.ofInt bound).isFinite = true) :
    ∃ n n', 0 ≤ n ∧ n ≤ n' ∧
      (0 < bound → wholePart? (.real x) bound = some n ∧ wholePart? (.real y) bound = some n') := by
  by_cases hbound : 0 < bound
  · obtain ⟨hnonneg, num, den, hden, hratio, hpart⟩ := wholePart?_real hx hfinite hbound
    obtain ⟨-, num', den', hden', hratio', hpart'⟩ := wholePart?_real hy hfinite hbound
    have hproducts : (num : ℚ) / den ≤ num' / den' := by
      rw [hratio, hratio']
      exact mul_le_mul_of_nonneg_right hle hnonneg
    refine ⟨_, _, Int.floor_nonneg.2 (Binary64.rounded_nonneg num den), ?_, fun _ => ⟨hpart, hpart'⟩⟩
    exact Int.floor_le_floor (Binary64.rounded_mono hden hden' hproducts)
  · exact ⟨0, 0, le_rfl, le_rfl, fun h => absurd h hbound⟩

/-- There is none for a bound beyond all finite numbers. -/
theorem wholePart?_beyond {x : Binary64} (hx : x.InUnit) {bound : Int} (hinfinite : (Binary64.ofInt bound).isFinite = false)
    (hbound : 0 < bound) : wholePart? (.real x) bound = none := by
  have hofInt := Binary64.ofInt_of_pos hbound
  unfold wholePart?
  rw [hofInt] at hinfinite ⊢
  rcases Binary64.ofRatio_cases (Int.natAbs_pos.2 hbound.ne') Nat.one_pos false with ⟨-, m, e, heq, -⟩ | ⟨-, heq⟩
  · rw [heq] at hinfinite
    cases hinfinite
  · rw [heq]
    cases x with
    | finite negative m e =>
      unfold Binary64.mul
      dsimp only
      split <;> rfl
    | infinite negative => cases hx.isFinite
    | nan => cases hx.isFinite

/-- Waits of about as many milliseconds as a number that is finite in double precision are finite in seconds. -/
theorem seconds_eq {millis bound : Int} (h : millis.natAbs ≤ 2 * bound.natAbs) (hfinite : (Binary64.ofInt bound).isFinite = true) :
    seconds millis = .ok (Binary64.ofQuotient millis 1000) := by
  have hbound : Binary64.rounded bound.natAbs 1 < Binary64.beyond := (Binary64.isFinite_ofRatio Nat.one_pos _).1 hfinite
  have hle : (millis.natAbs : ℚ) / (1000 : Nat) ≤ bound.natAbs / (1 : Nat) := by
    have hcast : (millis.natAbs : ℚ) ≤ 2 * bound.natAbs := by exact_mod_cast h
    rw [div_le_div_iff₀ (by norm_num) (by norm_num)]
    push_cast
    linarith
  have hmillis : (Binary64.ofQuotient millis 1000).isFinite = true :=
    (Binary64.isFinite_ofRatio (by decide) _).2 (lt_of_le_of_lt (Binary64.rounded_mono (by decide) Nat.one_pos hle) hbound)
  unfold seconds
  exact if_pos hmillis

end Backoff

namespace Jitter

variable {jitter : Jitter} {base maxTime : Number} {cap baseMillis maxMillis : Int} {strategy : BackoffStrategy}

/-- A wait that is allowed is at most twice the number of waits. -/
theorem Allows.natAbs_le {ceiling wait : Int} (h : jitter.Allows ceiling wait) (hceiling : 0 ≤ ceiling) :
    wait.natAbs ≤ 2 * (jitter.range ceiling).natAbs := by
  cases jitter <;> simp only [Allows, range] at * <;> omega

/-- A strategy that is made has the numbers it is made with, and its times are positive. -/
theorem exponential?_ok (h : BackoffStrategy.exponential? jitter base maxTime cap = .ok strategy) :
    base.isNonpositive = false ∧ maxTime.isNonpositive = false ∧ strategy = .exponential jitter base maxTime cap := by
  unfold BackoffStrategy.exponential? at h
  split at h
  · cases h
  · split at h
    · cases h
    · split at h
      · cases h
      · exact ⟨eq_false_of_ne_true ‹_›, eq_false_of_ne_true ‹_›, (Except.ok.inj h).symm⟩

/-- A strategy's delay is the wait for the next draw, in seconds. -/
theorem delay_eq (hstrategy : BackoffStrategy.exponential? jitter base maxTime cap = .ok strategy)
    (hbase : Backoff.millis base = .ok baseMillis) (hmax : Backoff.millis maxTime = .ok maxMillis) (retries : Nat) (draws : Draws) :
    strategy.delay retries draws =
      match jitter.wait? (Backoff.wholePart? draws.next.1) (Backoff.ceiling retries cap.toNat baseMillis maxMillis) with
      | some wait => (Backoff.seconds wait).map
          (·, jitter.left (Backoff.ceiling retries cap.toNat baseMillis maxMillis) draws)
      | none => .error .tooLarge := by
  obtain ⟨-, -, rfl⟩ := exponential?_ok hstrategy
  simp only [BackoffStrategy.delay, hbase, hmax, drawMillis_eq, bind, Except.bind, pure, Except.pure]
  cases jitter.wait? (Backoff.wholePart? draws.next.1) (Backoff.ceiling retries cap.toNat baseMillis maxMillis) with
  | none => rfl
  | some wait => cases hseconds : Backoff.seconds wait <;> simp only [hseconds, Except.map]

/-- The waits of a strategy with jitter. The time that doubles grows with the retries up to the cap on them, and stays under the
cap on it. Every draw that is a fraction from zero to one makes a wait that the jitter allows, and a larger draw no shorter one. So
does every such draw of double precision, unless the number of waits is beyond all finite numbers. -/
theorem delays_bounded (hstrategy : BackoffStrategy.exponential? jitter base maxTime cap = .ok strategy)
    (hbase : Backoff.millis base = .ok baseMillis) (hmax : Backoff.millis maxTime = .ok maxMillis) :
    (∀ n n' : Nat, n ≤ n' → Backoff.ceiling n cap.toNat baseMillis maxMillis ≤ Backoff.ceiling n' cap.toNat baseMillis maxMillis) ∧
      ∀ (retries : Nat) (ceiling : Int), ceiling = Backoff.ceiling retries cap.toNat baseMillis maxMillis →
        ceiling = min (2 ^ min retries cap.toNat * baseMillis) maxMillis ∧
        (cap ≤ retries → ceiling = Backoff.ceiling cap.toNat cap.toNat baseMillis maxMillis) ∧ ceiling ≤ maxMillis ∧
        (∀ u v : ℚ, 0 ≤ u → u ≤ v → v ≤ 1 → ∃ k l, jitter.wait? (Backoff.exactPart? u) ceiling = some k ∧
          jitter.wait? (Backoff.exactPart? v) ceiling = some l ∧ jitter.Allows ceiling k ∧ jitter.Allows ceiling l ∧ k ≤ l) ∧
        (∀ (draws draws' : Draws) (x y : Binary64), draws.next.1 = .real x → draws'.next.1 = .real y → x.InUnit → y.InUnit →
          x.value ≤ y.value →
          if (Binary64.ofInt (jitter.range ceiling)).isFinite then
            ∃ k l, strategy.delay retries draws = .ok (Binary64.ofQuotient k 1000, jitter.left ceiling draws) ∧
              strategy.delay retries draws' = .ok (Binary64.ofQuotient l 1000, jitter.left ceiling draws') ∧
              jitter.Allows ceiling k ∧ jitter.Allows ceiling l ∧ k ≤ l
          else strategy.delay retries draws = .error .tooLarge) := by
  obtain ⟨hbasePos, hmaxPos, -⟩ := exponential?_ok hstrategy
  have hbaseNonneg := Backoff.millis_nonneg hbasePos hbase
  have hmaxNonneg := Backoff.millis_nonneg hmaxPos hmax
  refine ⟨fun n n' => Backoff.ceiling_mono hbaseNonneg, ?_⟩
  rintro retries ceiling rfl
  have hnonneg := Backoff.ceiling_nonneg hbaseNonneg hmaxNonneg retries cap.toNat
  refine ⟨?_, fun h => Backoff.ceiling_of_le (Int.toNat_le.2 h), Backoff.ceiling_le _ _ _ _, ?_, ?_⟩
  · unfold Backoff.ceiling
    push_cast [Nat.pow_eq]
    rfl
  · intro u v hu huv hv
    have hrange : (0 : ℚ) ≤ jitter.range (Backoff.ceiling retries cap.toNat baseMillis maxMillis) :=
      Int.cast_nonneg (range_nonneg hnonneg)
    have hle := mul_le_mul_of_nonneg_right huv hrange
    exact exists_waits hnonneg (Int.floor_nonneg.2 (mul_nonneg hu hrange)) (Int.floor_le_floor hle) fun _ => ⟨rfl, rfl⟩
  · intro draws draws' x y hx hy hxUnit hyUnit hle
    have hdelay := delay_eq hstrategy hbase hmax retries
    generalize Backoff.ceiling retries cap.toNat baseMillis maxMillis = ceiling at *
    split
    · next hfinite =>
      obtain ⟨n, n', hn, hnn', hparts⟩ := Backoff.wholeParts_le hxUnit hyUnit hle hfinite
      obtain ⟨k, l, hk, hl, hkAllows, hlAllows, hkl⟩ := exists_waits hnonneg hn hnn' hparts
      refine ⟨k, l, ?_, ?_, hkAllows, hlAllows, hkl⟩
      · rw [hdelay, hx, hk]
        dsimp only
        rw [Backoff.seconds_eq (hkAllows.natAbs_le hnonneg) hfinite]
        rfl
      · rw [hdelay, hy, hl]
        dsimp only
        rw [Backoff.seconds_eq (hlAllows.natAbs_le hnonneg) hfinite]
        rfl
    · next hinfinite =>
      have hrange : 0 < jitter.range ceiling := by
        rcases (range_nonneg hnonneg).lt_or_eq with hpos | hzero
        · exact hpos
        · exact absurd (hzero ▸ rfl) hinfinite
      have hnone : jitter.wait? (Backoff.wholePart? (.real x)) ceiling = none := by
        unfold wait?
        rw [if_neg (not_le.2 hrange), Backoff.wholePart?_beyond hxUnit (eq_false_of_ne_true hinfinite) hrange]
        rfl
      rw [hdelay, hx, hnone]

/-- Seconds from one to twenty, for the fifth retry under a cap of three doublings. -/
theorem delays_bounded_fifthRetry :
    BackoffStrategy.exponential? .equal (.whole 1) (.whole 20) 3 = .ok (.exponential .equal (.whole 1) (.whole 20) 3) ∧
      Backoff.millis (.whole 1) = .ok 1000 ∧ Backoff.millis (.whole 20) = .ok 20000 ∧ Backoff.ceiling 5 3 1000 20000 = 8000 ∧
      ∃ k l, Jitter.equal.wait? (Backoff.exactPart? (1 / 3)) 8000 = some k ∧
        Jitter.equal.wait? (Backoff.exactPart? 1) 8000 = some l ∧ Jitter.equal.Allows 8000 k ∧ Jitter.equal.Allows 8000 l ∧
        k ≤ l := by
  have hstrategy : BackoffStrategy.exponential? .equal (.whole 1) (.whole 20) 3 =
      .ok (.exponential .equal (.whole 1) (.whole 20) 3) := rfl
  have hbase : Backoff.millis (.whole 1) = .ok 1000 := rfl
  have hmax : Backoff.millis (.whole 20) = .ok 20000 := rfl
  have hceiling : Backoff.ceiling 5 3 1000 20000 = 8000 := by decide
  obtain ⟨-, -, -, hexact, -⟩ := (delays_bounded hstrategy hbase hmax).2 5 8000 hceiling.symm
  exact ⟨hstrategy, hbase, hmax, hceiling, hexact (1 / 3) 1 (by norm_num) (by norm_num) le_rfl⟩

end Jitter

end SignedCall
