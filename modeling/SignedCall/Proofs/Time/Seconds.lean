import Mathlib.Data.Nat.Cast.Order.Field
import SignedCall.Proofs.Number.Rounding
import SignedCall.Time.Stamp

/-!
# Whole seconds and the offset of a clock

A span is turned into seconds in double precision before it is cut to whole ones. Just below a full second of a long span that
conversion gains the second (`GainsSecond`), and nothing else is ever gained or lost (`wholeSeconds_eq`). The offset of a clock
is such a number of seconds. Taking it off the clock's time leads back to within a second of the server's, unless the gained
second leads out of the calendar (`Overshoots`).
-/

namespace SignedCall

/-! ## Whole seconds -/

/-- The full second after a span of `n` microseconds is the nearest double to it. -/
def GainsSecond (n : Nat) : Prop :=
  2 ^ (53 - (n / secondMicros).log2) * (secondMicros - n % secondMicros) ≤ secondMicros

instance (n : Nat) : Decidable (GainsSecond n) := inferInstanceAs (Decidable (_ ≤ _))

/-- The full seconds of a span of `n` microseconds, with the one it gains. -/
def fullSeconds (n : Nat) : Nat := n / secondMicros + if GainsSecond n then 1 else 0

namespace Binary64

variable {n : Nat}

/-- A span is rounded to no less than its full seconds and to no more than one second more. -/
theorem rounded_seconds_mem (h : n / secondMicros < 2 ^ 52) :
    ((n / secondMicros : Nat) : ℚ) ≤ rounded n secondMicros ∧ rounded n secondMicros ≤ (n / secondMicros + 1 : Nat) := by
  have hmicros : 0 < secondMicros := by decide
  have hleast : minExponent ≤ 0 := by decide
  have hlower : ((n / secondMicros : Nat) : ℚ) * 2 ^ (0 : Int) ≤ n / secondMicros := by
    rw [zpow_zero, mul_one]
    exact Nat.cast_div_le
  have hupper : (n : ℚ) / secondMicros ≤ (n / secondMicros + 1 : Nat) * 2 ^ (0 : Int) := by
    rw [zpow_zero, mul_one, div_le_iff₀ (by decide)]
    exact_mod_cast (Nat.lt_mul_of_div_lt (Nat.lt_succ_self _) hmicros).le
  have hdown := le_rounded hmicros (by omega) hleast hlower
  have hup := rounded_le hmicros (by omega) hleast hupper
  rw [zpow_zero, mul_one] at hdown hup
  exact ⟨hdown, hup⟩

/-- A span of less than a second does not gain one. -/
theorem rounded_seconds_lt_one (h : n < secondMicros) : rounded n secondMicros < 1 := by
  have hbelow : (n : ℚ) / secondMicros ≤ (2 ^ 53 - 1 : Nat) * 2 ^ (-53 : Int) := by
    have hn : (n : ℚ) ≤ 999999 := by exact_mod_cast Nat.le_of_lt_succ h
    rw [div_le_iff₀ (by decide)]
    norm_num [secondMicros]
    linarith
  exact lt_of_le_of_lt (rounded_le (by decide) (by decide) (by decide) hbelow) (by norm_num)

/-- The grid of a span of at least a second has as many bits below one as its full seconds leave. -/
theorem exponentFor_seconds (hpos : 0 < n) (hfull : 0 < n / secondMicros) (h : n / secondMicros < 2 ^ 52) :
    exponentFor n secondMicros = -((52 - (n / secondMicros).log2 : Nat) : Int) := by
  have hbits : (n / secondMicros).log2 < 52 := (Nat.log2_lt hfull.ne').2 h
  have hlower : (2 : ℚ) ^ ((n / secondMicros).log2 : Int) ≤ n / secondMicros := by
    refine le_trans ?_ Nat.cast_div_le
    rw [zpow_natCast]
    exact_mod_cast Nat.log2_self_le hfull.ne'
  have hupper : (n : ℚ) / secondMicros < 2 ^ (((n / secondMicros).log2 : Int) + 1) := by
    have hlt : n < 2 ^ ((n / secondMicros).log2 + 1) * secondMicros := Nat.lt_mul_of_div_lt Nat.lt_log2_self (by decide)
    rw [div_lt_iff₀ (by decide), ← Nat.cast_succ, zpow_natCast]
    exact_mod_cast hlt
  rw [exponentFor_eq hpos (by decide), log_two_eq hlower hupper, max_eq_left (by unfold minExponent; omega)]
  omega

/-- A span of at least a second gains one if the next one is at most half a unit of the grid away. -/
theorem le_rounded_seconds (hpos : 0 < n) (hfull : 0 < n / secondMicros) (h : n / secondMicros < 2 ^ 52) :
    ((n / secondMicros + 1 : Nat) : ℚ) ≤ rounded n secondMicros ↔ GainsSecond n := by
  have hbits : (n / secondMicros).log2 < 52 := (Nat.log2_lt hfull.ne').2 h
  have hmicros : secondMicros * (n / secondMicros) + n % secondMicros = n := Nat.div_add_mod n secondMicros
  have hrest : n % secondMicros < secondMicros := Nat.mod_lt n (by decide)
  have hrounded : rounded n secondMicros =
      roundHalfEven (n * 2 ^ (52 - (n / secondMicros).log2)) secondMicros * 2 ^ (-((52 - (n / secondMicros).log2 : Nat) : Int)) := by
    unfold rounded
    rw [exponentFor_seconds hpos hfull h]
    simp [powRatio]
  rw [hrounded]
  unfold GainsSecond
  generalize n / secondMicros = seconds at *
  generalize n % secondMicros = rest at *
  obtain ⟨bits, hcount⟩ : ∃ bits, 52 - seconds.log2 = bits + 1 := ⟨51 - seconds.log2, by omega⟩
  have hcount' : 53 - seconds.log2 = bits + 2 := by omega
  have heven : (seconds + 1) * 2 ^ (bits + 1) % 2 = 0 := by
    rw [Nat.pow_succ, ← Nat.mul_assoc, Nat.mul_mod_left]
  have hstep : (seconds + 1) * 2 ^ (bits + 1) ≤ roundHalfEven (n * 2 ^ (bits + 1)) secondMicros ↔
      2 ^ (bits + 2) * (secondMicros - rest) ≤ secondMicros := by
    have hsplit : 2 * ((seconds + 1) * 2 ^ (bits + 1) * secondMicros) =
        2 * (n * 2 ^ (bits + 1)) + 2 ^ (bits + 2) * (secondMicros - rest) := by
      obtain ⟨gap, hgap⟩ := Nat.exists_eq_add_of_le hrest.le
      rw [← hmicros, hgap, Nat.add_sub_cancel_left]
      ring
    rw [le_roundHalfEven_iff_of_even (by decide) heven, hsplit, Nat.add_le_add_iff_left]
  rw [hcount, hcount', zpow_neg, zpow_natCast, ← div_eq_mul_inv, le_div_iff₀ (by positivity), ← hstep]
  exact_mod_cast Iff.rfl

/-- A span is rounded to a number with its full seconds as the whole part, gained one included. -/
theorem floor_rounded_seconds (h : n / secondMicros < 2 ^ 52) : ⌊rounded n secondMicros⌋ = fullSeconds n := by
  rcases n.eq_zero_or_pos with rfl | hpos
  · rw [rounded_zero, Int.floor_zero]
    decide
  obtain ⟨hdown, hup⟩ := rounded_seconds_mem h
  have hgain : ((n / secondMicros + 1 : Nat) : ℚ) ≤ rounded n secondMicros ↔ GainsSecond n := by
    rcases (n / secondMicros).eq_zero_or_pos with hzero | hfull
    · have hshort := rounded_seconds_lt_one (by rwa [Nat.div_eq_zero_iff_lt (by decide)] at hzero)
      have hrest : n % secondMicros < secondMicros := Nat.mod_lt n (by decide)
      unfold GainsSecond
      rw [hzero, Nat.zero_add, Nat.cast_one]
      refine iff_of_false (not_le.2 hshort) ?_
      unfold secondMicros at hrest ⊢
      rw [Nat.log2_zero]
      omega
    · exact le_rounded_seconds hpos hfull h
  unfold fullSeconds
  by_cases hg : GainsSecond n
  · rw [if_pos hg, le_antisymm hup (hgain.2 hg), Int.floor_natCast]
  · rw [if_neg hg, Nat.add_zero, Int.floor_eq_iff]
    have hlt := not_le.1 fun hle => hg (hgain.1 hle)
    exact ⟨by exact_mod_cast hdown, by exact_mod_cast hlt⟩

/-- The seconds of a span in double precision are finite. -/
theorem rounded_seconds_lt_beyond (h : n / secondMicros < 2 ^ 52) : rounded n secondMicros < beyond := by
  calc rounded n secondMicros ≤ (n / secondMicros + 1 : Nat) := (rounded_seconds_mem h).2
    _ ≤ (2 ^ 52 : Nat) := Nat.cast_le.2 h
    _ = 2 ^ (52 : Int) := by norm_num
    _ < beyond := zpow_lt_zpow_right₀ one_lt_two (by decide)

end Binary64

/-- The span between two instants has a number of seconds of far fewer bits than a double. -/
theorem natAbs_div_lt {d : Int} (h : d.natAbs < timeLimit) : d.natAbs / secondMicros < 2 ^ 52 := by
  have hlimit : timeLimit / secondMicros < 2 ^ 52 := by decide
  exact Nat.lt_of_le_of_lt (Nat.div_le_div_right h.le) hlimit

/-- The whole seconds of a span are its full seconds, with the sign of the span. -/
theorem wholeSeconds_eq {d : Int} (h : d.natAbs < timeLimit) :
    wholeSeconds d = if d < 0 then -(fullSeconds d.natAbs : Int) else fullSeconds d.natAbs := by
  have hseconds := natAbs_div_lt h
  unfold wholeSeconds secondsOf Binary64.ofQuotient
  rw [Binary64.truncate?_ofRatio (by decide), if_pos (Binary64.rounded_seconds_lt_beyond hseconds),
    Binary64.floor_rounded_seconds hseconds]
  simp only [decide_eq_true_eq, Option.getD_some]

/-- A span that gains a second is less than half a second short of it. -/
theorem GainsSecond.two_mul_le {n : Nat} (hn : n / secondMicros < 2 ^ 52) (h : GainsSecond n) :
    2 * (secondMicros - n % secondMicros) ≤ secondMicros := by
  have hbits : (n / secondMicros).log2 < 53 := by
    rcases (n / secondMicros).eq_zero_or_pos with hzero | hpos
    · rw [hzero, Nat.log2_zero]
      decide
    · exact (Nat.log2_lt hpos.ne').2 (hn.trans (by decide))
  refine le_trans (Nat.mul_le_mul_right _ ?_) h
  exact Nat.le_self_pow (by omega) 2

/-- Short of 2 ^ 34 seconds, more than five centuries, no span gains a second. -/
theorem not_gainsSecond {n : Nat} (h : n / secondMicros < 2 ^ 34) : ¬GainsSecond n := by
  have hrest : n % secondMicros < secondMicros := Nat.mod_lt n (by decide)
  have hbits : (n / secondMicros).log2 ≤ 33 := by
    rcases (n / secondMicros).eq_zero_or_pos with hzero | hpos
    · rw [hzero, Nat.log2_zero]
      decide
    · exact Nat.lt_succ_iff.1 ((Nat.log2_lt hpos.ne').2 h)
  intro hgain
  have hle : 2 ^ 20 * (secondMicros - n % secondMicros) ≤ secondMicros :=
    le_trans (Nat.mul_le_mul_right _ (Nat.pow_le_pow_right two_pos (by omega))) hgain
  unfold secondMicros at hle hrest
  omega

/-! ## The time to sign with -/

/-- The microseconds that two clocks are apart. -/
def skew (server now : Instant) : Nat := ((now.micros : Int) - server.micros).natAbs

/-- The clocks are so far apart that the offset gains a second, and the server's time is so close to the end of the calendar
that lies beyond it that the calendar ends within what was gained. -/
def Overshoots (server now : Instant) : Prop :=
  GainsSecond (skew server now) ∧
    (if server.micros ≤ now.micros then server.micros else timeLimit - 1 - server.micros) <
      secondMicros - skew server now % secondMicros

instance (server now : Instant) : Decidable (Overshoots server now) := inferInstanceAs (Decidable (_ ∧ _))

/-- No two clocks are further apart than the calendar is long. -/
theorem skew_lt (server now : Instant) : skew server now < timeLimit := by
  have hserver := server.micros_lt
  have hnow := now.micros_lt
  unfold skew
  omega

/-- One clock is behind the other or ahead of it by their skew. -/
theorem sub_eq_skew (server now : Instant) :
    (now.micros : Int) - server.micros = if server.micros ≤ now.micros then (skew server now : Int) else -skew server now := by
  unfold skew
  split <;> omega

/-- What remains of the skew when the offset is taken off: its part of a second, or what the gained second has too much. -/
theorem sub_timeOffset (server now : Instant) :
    ((now.micros : Int) - timeOffset server now * secondMicros) - server.micros =
      (if server.micros ≤ now.micros then 1 else -1) *
        if GainsSecond (skew server now) then -((secondMicros - skew server now % secondMicros : Nat) : Int)
        else (skew server now % secondMicros : Nat) := by
  have hmicros := Nat.div_add_mod (skew server now) secondMicros
  have hrest : skew server now % secondMicros < secondMicros := Nat.mod_lt _ (by decide)
  have hoffset : timeOffset server now =
      if ((now.micros : Int) - server.micros) < 0 then -(fullSeconds (skew server now) : Int) else fullSeconds (skew server now) :=
    wholeSeconds_eq (skew_lt server now)
  unfold fullSeconds at hoffset
  have hskew := sub_eq_skew server now
  generalize skew server now = n at *
  unfold secondMicros at *
  rw [hoffset]
  split_ifs at * <;> omega

/-- The time to sign with is the clock's with the offset taken off. -/
theorem micros_of_signingTime? {now t : Instant} {offset : Int} (h : signingTime? now offset = some t) :
    (t.micros : Int) = now.micros - offset * secondMicros := by
  unfold signingTime? Instant.add? Instant.ofMicros? at h
  split at h
  · next hrange =>
    simp only [Option.some.injEq] at h
    rw [← h, Int.toNat_of_nonneg hrange.1, Int.sub_eq_add_neg]
  · simp at h

/-- There is no time to sign at if the corrected one is not in the calendar. -/
theorem signingTime?_eq_none {now : Instant} {offset : Int} :
    signingTime? now offset = none ↔
      (now.micros : Int) - offset * secondMicros < 0 ∨ (timeLimit : Int) ≤ now.micros - offset * secondMicros := by
  unfold signingTime? Instant.add? Instant.ofMicros?
  rw [← Int.sub_eq_add_neg]
  split
  · next hrange => exact iff_of_false (by simp) (by omega)
  · next hrange => exact iff_of_true rfl (by omega)

/-- Signing under the offset from a server's time is within a second of that time, whatever the clock reads, and there is no
time to sign with exactly when the offset overshoots. -/
theorem signingTime?_timeOffset (s n : Instant) :
    (∀ t, signingTime? n (timeOffset s n) = some t → ((t.micros : Int) - s.micros).natAbs < secondMicros) ∧
      (signingTime? n (timeOffset s n) = none ↔ Overshoots s n) := by
  have hremainder := sub_timeOffset s n
  have hrest : skew s n % secondMicros < secondMicros := Nat.mod_lt _ (by decide)
  have hmod : skew s n % secondMicros ≤ skew s n := Nat.mod_le _ _
  have hskew := sub_eq_skew s n
  have hserver := s.micros_lt
  have hnow := n.micros_lt
  constructor
  · intro t ht
    rw [micros_of_signingTime? ht, hremainder]
    by_cases hgain : GainsSecond (skew s n)
    · have hhalf : 2 * (secondMicros - skew s n % secondMicros) ≤ secondMicros :=
        hgain.two_mul_le (natAbs_div_lt (skew_lt s n))
      rw [if_pos hgain]
      split_ifs <;> omega
    · rw [if_neg hgain]
      split_ifs <;> omega
  · rw [signingTime?_eq_none]
    unfold Overshoots
    by_cases hgain : GainsSecond (skew s n)
    · -- What was gained lies beyond the server's time, seen from the clock's.
      rw [if_pos hgain] at hremainder
      rw [and_iff_right hgain]
      by_cases hahead : s.micros ≤ n.micros
      · rw [if_pos hahead] at hremainder ⊢
        omega
      · rw [if_neg hahead] at hremainder ⊢
        omega
    · -- What remains lies between the server's time and the clock's.
      rw [if_neg hgain] at hremainder
      refine iff_of_false ?_ fun h => hgain h.1
      by_cases hahead : s.micros ≤ n.micros
      · rw [if_pos hahead] at hremainder hskew
        omega
      · rw [if_neg hahead] at hremainder hskew
        omega

/-- No offset overshoots while the clocks are less than 2 ^ 34 seconds apart. -/
theorem not_overshoots_of_skew_lt {server now : Instant} (h : skew server now / secondMicros < 2 ^ 34) : ¬Overshoots server now :=
  fun hover => not_gainsSecond h hover.1

/-- No offset overshoots from a server's time that is half a second or more away from both ends of the calendar. -/
theorem not_overshoots_of_inner {server now : Instant} (h : secondMicros ≤ 2 * server.micros)
    (h' : secondMicros ≤ 2 * (timeLimit - 1 - server.micros)) : ¬Overshoots server now := by
  intro hover
  have hhalf : 2 * (secondMicros - skew server now % secondMicros) ≤ secondMicros :=
    hover.1.two_mul_le (natAbs_div_lt (skew_lt server now))
  have hroom := hover.2
  split at hroom <;> omega

/-- The offset of a clock that is read at the moment a server tells its time, if both readings denote instants. -/
def offset? (server clock : DateTime) : Option Int := do
  timeOffset (← server.utc?) (← clock.utc?)

/-- Whatever the two readings are, signing under the offset between them is within a second of the server's time if there is a
time to sign with, and there is one unless the offset overshoots. -/
theorem signingTime?_of_offset? {server clock : DateTime} {offset : Int} (h : offset? server clock = some offset) :
    ∃ s n, server.utc? = some s ∧ clock.utc? = some n ∧
      (∀ t, signingTime? n offset = some t → ((t.micros : Int) - s.micros).natAbs < secondMicros) ∧
      (signingTime? n offset = none ↔ Overshoots s n) := by
  unfold offset? at h
  cases hs : server.utc? with
  | none => simp [hs] at h
  | some s =>
    cases hn : clock.utc? with
    | none => simp [hs, hn] at h
    | some n =>
      simp only [hs, hn, Option.bind_eq_bind, Option.bind_some, Option.some.injEq] at h
      subst h
      exact ⟨s, n, rfl, rfl, signingTime?_timeOffset s n⟩

/-- A clock a second and a half ahead of a server, in another zone. -/
theorem signingTime?_of_offset?_ahead :
    offset? ⟨0, none, by decide⟩ ⟨3601500000, some 3600000000, by decide⟩ = some 1 ∧
      ∃ s n, DateTime.utc? ⟨0, none, by decide⟩ = some s ∧
        DateTime.utc? ⟨3601500000, some 3600000000, by decide⟩ = some n ∧
        (∀ t, signingTime? n 1 = some t → ((t.micros : Int) - s.micros).natAbs < secondMicros) ∧
        (signingTime? n 1 = none ↔ Overshoots s n) := by
  have hoffset : offset? ⟨0, none, by decide⟩ ⟨3601500000, some 3600000000, by decide⟩ = some 1 := by decide +kernel
  exact ⟨hoffset, signingTime?_of_offset? hoffset⟩

/-- The clock reads the last microsecond of the calendar, the server the first: the offset is a second too long, and leads
out of the calendar. -/
theorem signing_within_second_always_false :
    ¬∀ (server clock : DateTime) (offset : Int), offset? server clock = some offset →
      ∃ s n t, server.utc? = some s ∧ clock.utc? = some n ∧ signingTime? n offset = some t ∧
        ((t.micros : Int) - s.micros).natAbs < secondMicros := by
  intro h
  have hoffset : offset? ⟨0, none, by decide⟩ ⟨timeLimit - 1, none, by decide⟩ = some 315537897600 := by decide +kernel
  have hclock : DateTime.utc? ⟨timeLimit - 1, none, by decide⟩ = some ⟨timeLimit - 1, by decide⟩ := by decide +kernel
  have hsigning : signingTime? ⟨timeLimit - 1, by decide⟩ 315537897600 = none := by decide +kernel
  obtain ⟨s, n, t, -, hn, ht, -⟩ := h _ _ _ hoffset
  rw [hclock, Option.some.injEq] at hn
  rw [← hn, hsigning] at ht
  exact absurd ht nofun

end SignedCall
