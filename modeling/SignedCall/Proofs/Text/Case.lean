import Mathlib.Tactic.Common
import SignedCall.Text.Case

/-!
# Lower case as a normal form

Lower-casing a second time changes nothing (`lowerFrom_of_settled`, `settled_of_mem_lowerFrom`), and a character that is no lower-case
form of another stands in the lower-case form of a text only where it stood in the text (`mem_of_mem_lowerFrom`). Both are read off
the table of runs: no lower-case form lies in a run again.
-/

namespace SignedCall.Text

/-! ## The table -/

/-- A run of the table: its first and last code point, its step, and the way to the lower-case forms. -/
abbrev CaseRun := Nat × Nat × Nat × Int

namespace CaseRun

/-- Whether a code point is in a run. -/
def Holds (r : CaseRun) (n : Nat) : Prop := r.1 ≤ n ∧ n ≤ r.2.1 ∧ (n - r.1) % r.2.2.1 = 0

/-- The first lower-case form of a run. -/
def low (r : CaseRun) : Nat := (r.1 + r.2.2.2).toNat

/-- The last lower-case form of a run. -/
def high (r : CaseRun) : Nat := (r.2.1 + r.2.2.2).toNat

/-- Whether the lower-case forms of a run all lie above or below a code point. -/
def misses (r : CaseRun) (n : Nat) : Bool := r.high < n || n < r.low

/-- Whether the lower-case forms of a run are characters, and none of them the dotted capital I. -/
def sound (r : CaseRun) : Bool :=
  0 ≤ r.1 + r.2.2.2 && (r.high < 0xd800 || 0xdfff < r.low && r.high < 0x110000) && r.misses 0x130

/-- Whether the lower-case forms of a run lie outside of another run: beside it, or in the gaps that its steps of two leave. -/
def apart (r r' : CaseRun) : Bool :=
  r.high.blt r'.1 || r'.2.1.blt r.low || ((r.1 == r.2.1 || r.2.2.1 == 2) && r'.2.2.1 == 2 && (r.low + r'.1) % 2 == 1)

variable {r r' : CaseRun} {n : Nat}

/-- A lower-case form is no negative code point. -/
theorem shift_nonneg (hs : r.sound = true) (h : r.Holds n) : 0 ≤ (n : Int) + r.2.2.2 := by
  simp only [sound, Bool.and_eq_true, decide_eq_true_eq] at hs
  have hfirst : (r.1 : Int) ≤ n := Int.ofNat_le.2 h.1
  omega

/-- The lower-case form of a code point of a run lies between the first and the last of the run. -/
theorem low_le_le_high (h : r.Holds n) : r.low ≤ ((n : Int) + r.2.2.2).toNat ∧ ((n : Int) + r.2.2.2).toNat ≤ r.high := by
  have hfirst : (r.1 : Int) ≤ n := Int.ofNat_le.2 h.1
  have hlast : (n : Int) ≤ r.2.1 := Int.ofNat_le.2 h.2.1
  unfold low high
  omega

/-- A lower-case form is a character. -/
theorem isValidChar (hs : r.sound = true) (h : r.Holds n) : ((n : Int) + r.2.2.2).toNat.isValidChar := by
  have hrange := low_le_le_high h
  simp only [sound, Bool.and_eq_true, Bool.or_eq_true, decide_eq_true_eq] at hs
  unfold Nat.isValidChar
  omega

/-- A lower-case form from one run does not lie in a run apart from it. -/
theorem not_holds_of_apart (hs : r.sound = true) (ha : r.apart r' = true) (h : r.Holds n) :
    ¬r'.Holds ((n : Int) + r.2.2.2).toNat := by
  rintro ⟨hfirst', hlast', hstep'⟩
  have hrange := low_le_le_high h
  have hnonneg := shift_nonneg hs h
  simp only [apart, Bool.or_eq_true, Bool.and_eq_true, beq_iff_eq, Nat.blt_eq] at ha
  simp only [sound, Bool.and_eq_true, decide_eq_true_eq] at hs
  obtain ⟨hfirst, hlast, hstep⟩ := h
  rcases ha with (ha | ha) | ⟨⟨ha, htwo⟩, hodd⟩
  · omega
  · omega
  · rw [htwo] at hstep'
    unfold low at hodd
    rcases ha with ha | ha
    · omega
    · rw [ha] at hstep
      omega

end CaseRun

/-- The lower-case forms of the table are characters. -/
theorem sound_of_mem {r : CaseRun} : r ∈ lowerRuns → r.sound = true :=
  List.all_eq_true.1 (show lowerRuns.all CaseRun.sound = true by decide +kernel) r

/-- No lower-case form of the table lies in a run again. -/
theorem apart_of_mem {r r' : CaseRun} (h : r ∈ lowerRuns) (h' : r' ∈ lowerRuns) : r.apart r' = true :=
  List.all_eq_true.1 (List.all_eq_true.1
    (show (lowerRuns.all fun r : CaseRun => lowerRuns.all r.apart) = true by decide +kernel) r h) r' h'

/-- A code point is in no run and has no distance to its lower-case form, or it is in a run and has the distance of that run. -/
theorem lowerShift_cases (n : Nat) : (lowerShift n = 0 ∧ ∀ r ∈ lowerRuns, ¬CaseRun.Holds r n) ∨
    ∃ r ∈ lowerRuns, CaseRun.Holds r n ∧ lowerShift n = r.2.2.2 := by
  unfold lowerShift
  split
  next first last step shift hfind =>
    right
    have hholds := List.find?_some hfind
    simp only [Bool.and_eq_true, decide_eq_true_eq, beq_iff_eq] at hholds
    exact ⟨_, List.mem_of_find?_eq_some hfind, ⟨hholds.1.1, hholds.1.2, hholds.2⟩, rfl⟩
  next hfind =>
    left
    refine ⟨rfl, fun r hr hholds => ?_⟩
    have hnot := List.find?_eq_none.1 hfind r hr
    simp only [Bool.and_eq_true, decide_eq_true_eq, beq_iff_eq] at hnot
    exact hnot ⟨⟨hholds.1, hholds.2.1⟩, hholds.2.2⟩

/-- The first run is the only one with ASCII characters: it is that of the capital letters. -/
theorem eq_or_le_of_mem {r : CaseRun} (h : r ∈ lowerRuns) : r = (65, 90, 1, 32) ∨ 0x80 ≤ r.1 := by
  have hall : (lowerRuns.all fun r : CaseRun => r == (65, 90, 1, 32) || 0x80 ≤ r.1) = true := by decide +kernel
  simpa using List.all_eq_true.1 hall r h

/-- In ASCII the capital letters alone have lower-case forms of their own. -/
theorem lowerShift_of_ascii {n : Nat} (h : n < 0x80) : lowerShift n = if 65 ≤ n ∧ n ≤ 90 then 32 else 0 := by
  rcases lowerShift_cases n with ⟨hzero, hnot⟩ | ⟨r, hr, hholds, hshift⟩
  · rw [hzero, if_neg fun hupper => hnot _ List.mem_cons_self ⟨hupper.1, hupper.2, Nat.mod_one _⟩]
  · rcases eq_or_le_of_mem hr with rfl | hlow
    · rw [hshift, if_pos ⟨hholds.1, hholds.2.1⟩]
    · exact absurd (Nat.le_trans hlow hholds.1) (Nat.not_le.2 h)

/-! ## Characters -/

/-- A statement about all ASCII characters, by the numbers below 128. -/
theorem forall_ascii {p : Char → Prop} (h : ∀ n < 0x80, p (Char.ofNat n)) {c : Char} (hc : c.toNat < 0x80) : p c := by
  have hp := h c.toNat hc
  rwa [Char.ofNat_toNat] at hp

theorem between_iff (a b c : Char) : (a ≤ c && c ≤ b) = true ↔ a.toNat ≤ c.toNat ∧ c.toNat ≤ b.toNat := by
  rw [Bool.and_eq_true, decide_eq_true_eq, decide_eq_true_eq]
  rfl

theorem toNat_ofNat {n : Nat} (h : n.isValidChar) : (Char.ofNat n).toNat = n := by
  unfold Char.ofNat
  rw [dif_pos h]
  rfl

/-- The lower-case form of an ASCII character, too, is the one of the table. -/
theorem lowerChar_eq (c : Char) : lowerChar c = Char.ofNat (c.toNat + lowerShift c.toNat).toNat := by
  unfold lowerChar
  split_ifs with hascii hupper
  · have hletter : 65 ≤ c.toNat ∧ c.toNat ≤ 90 := (between_iff 'A' 'Z' c).1 hupper
    rw [lowerShift_of_ascii hascii, if_pos hletter]
    rfl
  · have hother : ¬(65 ≤ c.toNat ∧ c.toNat ≤ 90) := fun h => hupper ((between_iff 'A' 'Z' c).2 h)
    rw [lowerShift_of_ascii hascii, if_neg hother]
    simp
  · rfl

/-- Whether a character is its own lower-case form, wherever it stands. -/
def Settled (c : Char) : Prop := c ≠ 'Σ' ∧ c ≠ 'İ' ∧ lowerChar c = c

/-- A character keeps its place, or goes from a run to a settled one among the lower-case forms of the run. -/
theorem lowerChar_cases (c : Char) : (lowerShift c.toNat = 0 ∧ lowerChar c = c) ∨
    ∃ r : CaseRun, r ∈ lowerRuns ∧ r.low ≤ (lowerChar c).toNat ∧ (lowerChar c).toNat ≤ r.high ∧ Settled (lowerChar c) := by
  rw [lowerChar_eq]
  rcases lowerShift_cases c.toNat with ⟨hzero, -⟩ | ⟨r, hr, hholds, hshift⟩
  · simp [hzero]
  · right
    have hsound := sound_of_mem hr
    have hrange := CaseRun.low_le_le_high hholds
    have htoNat := toNat_ofNat (CaseRun.isValidChar hsound hholds)
    have hnot : ∀ r' ∈ lowerRuns, ¬CaseRun.Holds r' (c.toNat + r.2.2.2).toNat :=
      fun r' hr' => CaseRun.not_holds_of_apart hsound (apart_of_mem hr hr') hholds
    have hshift' : lowerShift (c.toNat + r.2.2.2).toNat = 0 := by
      rcases lowerShift_cases (c.toNat + r.2.2.2).toNat with ⟨hzero, -⟩ | ⟨r', hr', hholds', -⟩
      · exact hzero
      · exact absurd hholds' (hnot r' hr')
    rw [hshift]
    refine ⟨r, hr, Nat.le_trans hrange.1 (Nat.le_of_eq htoNat.symm), Nat.le_trans (Nat.le_of_eq htoNat) hrange.2, ?_, ?_, ?_⟩
    · intro hsigma
      rw [hsigma] at htoNat
      have hrun : ((0x3a3, 0x3ab, 1, 32) : CaseRun) ∈ lowerRuns := by decide +kernel
      refine hnot _ hrun ?_
      rw [← htoNat]
      exact ⟨by decide, by decide, by decide⟩
    · intro hdotted
      rw [hdotted] at htoNat
      simp only [CaseRun.sound, CaseRun.misses, Bool.and_eq_true, Bool.or_eq_true, decide_eq_true_eq] at hsound
      have hvalue : Char.toNat 'İ' = 0x130 := rfl
      omega
    · rw [lowerChar_eq, htoNat, hshift', Int.add_zero, Int.toNat_natCast]

/-- The lower-case form of a character is settled. -/
theorem settled_lowerChar {c : Char} (hs : c ≠ 'Σ') (hi : c ≠ 'İ') : Settled (lowerChar c) := by
  rcases lowerChar_cases c with ⟨-, hc⟩ | ⟨r, -, -, -, hsettled⟩
  · rw [hc]
    exact ⟨hs, hi, hc⟩
  · exact hsettled

/-- Whether a character is no lower-case form of another one. -/
def isSolitary (d : Char) : Bool :=
  lowerRuns.all (CaseRun.misses · d.toNat) && d != 'σ' && d != 'ς' && d != 'i' && d != '\u0307'

/-- A character that is no lower-case form of another one comes from itself. -/
theorem eq_of_lowerChar_eq {c d : Char} (hd : isSolitary d = true) (h : lowerChar c = d) : c = d := by
  rcases lowerChar_cases c with ⟨-, hc⟩ | ⟨r, hr, hlow, hhigh, -⟩
  · rw [← h, hc]
  · simp only [isSolitary, Bool.and_eq_true, List.all_eq_true] at hd
    have hmiss := hd.1.1.1.1 r hr
    simp only [CaseRun.misses, Bool.or_eq_true, decide_eq_true_eq] at hmiss
    rw [h] at hlow hhigh
    omega

/-! ## Texts -/

/-- A text without the two letters that are not lower-cased one by one is lower-cased character by character. -/
theorem lowerFrom_append {cs : List Char} (h : ∀ c ∈ cs, c ≠ 'Σ' ∧ c ≠ 'İ') (before rest : List Char) :
    lowerFrom before (cs ++ rest) = cs.map lowerChar ++ lowerFrom (cs.reverse ++ before) rest := by
  induction cs generalizing before with
  | nil => rfl
  | cons c cs ih =>
    obtain ⟨hs, hi⟩ := h c List.mem_cons_self
    rw [List.cons_append, lowerFrom, ih fun d hd => h d (List.mem_cons_of_mem _ hd)]
    simp [hs, hi]

/-- A text without the two special capitals is lower-cased character by character. -/
theorem lowerFrom_eq_map {cs : List Char} (h : ∀ c ∈ cs, c ≠ 'Σ' ∧ c ≠ 'İ') (before : List Char) :
    lowerFrom before cs = cs.map lowerChar := by
  have hcs := lowerFrom_append h before []
  simpa [lowerFrom] using hcs

/-- A settled text is its own lower-case form. -/
theorem lowerFrom_of_settled {cs : List Char} (h : ∀ c ∈ cs, Settled c) (before : List Char) : lowerFrom before cs = cs := by
  rw [lowerFrom_eq_map fun c hc => ⟨(h c hc).1, (h c hc).2.1⟩]
  exact (List.map_congr_left fun c hc => (h c hc).2.2).trans (List.map_id _)

/-- Only the empty text has an empty lower-case form. -/
theorem lowerFrom_eq_nil {before cs : List Char} (h : lowerFrom before cs = []) : cs = [] := by
  cases cs with
  | nil => rfl
  | cons c cs =>
    rw [lowerFrom, List.append_eq_nil_iff] at h
    split_ifs at h <;> simp at h

/-- What a character becomes in a text. -/
theorem mem_lowerFrom {d : Char} {before cs : List Char} (h : d ∈ lowerFrom before cs) :
    d ∈ ['σ', 'ς', 'i', '\u0307'] ∨ ∃ c ∈ cs, c ≠ 'Σ' ∧ c ≠ 'İ' ∧ lowerChar c = d := by
  induction cs generalizing before with
  | nil => simp [lowerFrom] at h
  | cons c cs ih =>
    rw [lowerFrom] at h
    rcases List.mem_append.1 h with h | h
    · split_ifs at h <;> simp_all
    · rcases ih h with hmark | ⟨c', hc', hlower⟩
      · exact Or.inl hmark
      · exact Or.inr ⟨c', List.mem_cons_of_mem _ hc', hlower⟩

/-- The lower-case form of a text is settled. -/
theorem settled_of_mem_lowerFrom {d : Char} {before cs : List Char} (h : d ∈ lowerFrom before cs) : Settled d := by
  rcases mem_lowerFrom h with hmark | ⟨c, -, hs, hi, rfl⟩
  · have hall : (['σ', 'ς', 'i', '\u0307'].all fun d => d != 'Σ' && d != 'İ' && lowerChar d == d) = true := by decide +kernel
    simpa [Settled, and_assoc] using List.all_eq_true.1 hall d hmark
  · exact settled_lowerChar hs hi

/-- A character that is no lower-case form of another stands in the lower-case form of a text only where it stood before. -/
theorem mem_of_mem_lowerFrom {d : Char} (hd : isSolitary d = true) {before cs : List Char} (h : d ∈ lowerFrom before cs) : d ∈ cs := by
  rcases mem_lowerFrom h with hmark | ⟨c, hc, -, -, hlower⟩
  · simp only [isSolitary, Bool.and_eq_true, bne_iff_ne] at hd
    simp_all
  · rwa [← eq_of_lowerChar_eq hd hlower]

/-- A settled character of a text stands in its lower-case form. -/
theorem mem_lowerFrom_of_settled {d : Char} (hd : Settled d) {before cs : List Char} (h : d ∈ cs) : d ∈ lowerFrom before cs := by
  induction cs generalizing before with
  | nil => cases h
  | cons c cs ih =>
    rw [lowerFrom]
    rcases List.mem_cons.1 h with rfl | h
    · obtain ⟨hs, hi, hc⟩ := hd
      simp [hs, hi, hc]
    · exact List.mem_append_right _ (ih h)

end SignedCall.Text
