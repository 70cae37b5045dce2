import SignedCall.Http.Address
import SignedCall.Proofs.Text.Case
import SignedCall.Proofs.Text.Split

/-!
# Addresses in lower case

The text of an address in groups holds nothing but hexadecimal digits and the two separators (`plain_of_groupsValue?`), and in lower
case it writes the same address (`groupsValue?_lower`).
-/

namespace SignedCall.Address

/-! ## What an address is made of -/

/-- Whether a character is a hexadecimal digit. -/
def isHex (c : Char) : Bool := (Bytes.hexValue? c).isSome

/-- The characters of the texts of addresses, zones apart. -/
def isPlain (c : Char) : Bool := isHex c || c == '.' || c == ':'

theorem isHex_of_isAsciiDigit {c : Char} (h : Text.isAsciiDigit c = true) : isHex c = true := by
  unfold Text.isAsciiDigit at h
  simp [isHex, Bytes.hexValue?, h]

/-- A partial map that succeeds on a list succeeds on each of its members. -/
theorem isSome_of_mapM {α β : Type} {f : α → Option β} {xs : List α} {ys : List β} (h : xs.mapM f = some ys) :
    ∀ x ∈ xs, (f x).isSome = true := by
  induction xs generalizing ys with
  | nil => simp
  | cons x xs ih =>
    rw [List.mapM_cons] at h
    obtain ⟨y, hy, h⟩ := Option.bind_eq_some_iff.1 h
    obtain ⟨ys', hys, -⟩ := Option.bind_eq_some_iff.1 h
    intro z hz
    rcases List.mem_cons.1 hz with rfl | hz
    · rw [hy]
      rfl
    · exact ih hys z hz

/-- An octet is written in digits only. -/
theorem digits_of_octet? {part : List Char} (h : (octet? part).isSome = true) : ∀ c ∈ part, Text.isAsciiDigit c = true := by
  unfold octet? at h
  by_cases hshape : (part.isEmpty || !part.all Text.isAsciiDigit || 3 < part.length) = true
  · rw [if_pos hshape] at h
    cases h
  · simp only [Bool.or_eq_true, not_or, Bool.not_eq_true'] at hshape
    simpa using hshape.1.2

/-- An address of four decimal parts is made of digits and dots. -/
theorem digits_of_quad? {cs : List Char} {n : Nat} (h : quad? cs = some n) : ∀ c ∈ cs, Text.isAsciiDigit c = true ∨ c = '.' := by
  unfold quad? at h
  simp only at h
  split_ifs at h
  obtain ⟨values, hvalues, -⟩ := Option.bind_eq_some_iff.1 h
  intro c hc
  rcases Text.mem_part_of_mem '.' hc with hdot | ⟨part, hpart, hc⟩
  · exact .inr hdot
  · exact .inl (digits_of_octet? (isSome_of_mapM hvalues part hpart) c hc)

/-- A group is written in hexadecimal digits only. -/
theorem hex_of_group? {part : List Char} (h : (group? part).isSome = true) : ∀ c ∈ part, isHex c = true := by
  unfold group? at h
  split_ifs at h
  · cases h
  · obtain ⟨n, hn⟩ := Option.isSome_iff_exists.1 h
    obtain ⟨digits, hdigits, -⟩ := Option.bind_eq_some_iff.1 hn
    exact isSome_of_mapM hdigits

/-! ## The gap -/

/-- The groups between the first and the last one. -/
def inner (parts : List (List Char)) : List (List Char) := (parts.drop 1).dropLast

/-- The values of the groups on both sides of a gap, with zeros in between. -/
def fillGap? (high low : List (List Char)) : Option (List Nat) :=
  if groupCount - (high.length + low.length) = 0 then none
  else (high.mapM group?).bind fun highValues => (low.mapM group?).map fun lowValues =>
    highValues ++ List.replicate (groupCount - (high.length + low.length)) 0 ++ lowValues

/-- What is read from parts with a gap before the part number `gap`. -/
def readGap? (parts : List (List Char)) (gap : Nat) : Option (List Nat) :=
  (sideOfGap? parts.head? (parts.take gap)).bind fun high =>
    (sideOfGap? parts.getLast? (parts.drop (gap + 1))).bind fun low => fillGap? high low

/-- Without a gap all groups have to be there. -/
theorem groups?_of_no_gap {parts : List (List Char)} (h : (inner parts).count [] = 0) :
    groups? parts = if parts.length = groupCount then parts.mapM group? else none := by
  unfold inner at h
  simp only [groups?, h]

/-- With one gap the groups on its sides are read. -/
theorem groups?_of_gap {parts : List (List Char)} (h : (inner parts).count [] = 1) :
    groups? parts = readGap? parts (1 + ((inner parts).takeWhile (· ≠ [])).length) := by
  unfold inner at h
  simp only [groups?, h]
  refine Option.bind_congr fun high _ => Option.bind_congr fun low _ => ?_
  unfold fillGap?
  simp only [Option.bind_eq_bind, Option.map_eq_bind]
  rfl

/-- There may not be more than one gap. -/
theorem groups?_of_gaps {parts : List (List Char)} (h : 1 < (inner parts).count []) : groups? parts = none := by
  unfold inner at h
  unfold groups?
  simp only
  split <;> first | omega | rfl

/-- Parts with an empty one between the first and the last fall into those before the first such gap and those after it. -/
theorem eq_append_of_gap {parts : List (List Char)} (h : [] ∈ inner parts) :
    ∃ first before after last, parts = (first :: before) ++ [] :: (after ++ [last]) ∧
      ((inner parts).takeWhile (· ≠ [])).length = before.length := by
  unfold inner at h ⊢
  cases parts with
  | nil => cases h
  | cons first rest =>
    rw [List.drop_one, List.tail_cons] at h ⊢
    have hrest : rest ≠ [] := by
      rintro rfl
      cases h
    have hend := List.dropLast_concat_getLast hrest
    have hinner : rest.dropLast.takeWhile (· ≠ []) ++ rest.dropLast.dropWhile (· ≠ []) = rest.dropLast :=
      List.takeWhile_append_dropWhile
    cases hgap : rest.dropLast.dropWhile (· ≠ []) with
    | nil =>
      rw [hgap, List.append_nil] at hinner
      rw [← hinner] at h
      simpa using List.all_eq_true.1 List.all_takeWhile [] h
    | cons gap after =>
      have hempty := List.head?_dropWhile_not (fun part : List Char => decide (part ≠ [])) rest.dropLast
      rw [hgap, List.head?_cons] at hempty
      have hempty : gap = [] := by simpa using hempty
      rw [hgap, hempty] at hinner
      refine ⟨first, rest.dropLast.takeWhile (· ≠ []), after, rest.getLast hrest, ?_, rfl⟩
      rw [List.cons_append, List.cons.injEq]
      refine ⟨rfl, ?_⟩
      rw [← List.cons_append, ← List.append_assoc, hinner, hend]

/-- No group on a side of the gap is passed over but an empty one. -/
theorem mem_of_sideOfGap? {outer : List Char} {groups side : List (List Char)} (h : sideOfGap? (some outer) groups = some side)
    (houter : outer ∈ groups) : ∀ part ∈ groups, part = [] ∨ part ∈ side := by
  unfold sideOfGap? at h
  split_ifs at h with hempty hlength
  · obtain ⟨only, rfl⟩ := List.length_eq_one_iff.1 hlength
    rw [List.mem_singleton] at houter
    subst houter
    have hempty : outer = [] := by simpa using hempty
    intro part hpart
    exact .inl ((List.mem_singleton.1 hpart).trans hempty)
  · cases h
    exact fun part hpart => .inr hpart

/-- Where the groups on a side of the gap are read, the parts there hold hexadecimal digits only. -/
theorem hex_of_side {outer : List Char} {groups side : List (List Char)} {values : List Nat}
    (h : sideOfGap? (some outer) groups = some side) (hvalues : side.mapM group? = some values) (houter : outer ∈ groups) :
    ∀ part ∈ groups, ∀ c ∈ part, isHex c = true := by
  intro part hpart
  rcases mem_of_sideOfGap? h houter part hpart with rfl | hpart
  · simp
  · exact hex_of_group? (isSome_of_mapM hvalues part hpart)

/-- Groups that can be read hold nothing but hexadecimal digits. -/
theorem hex_of_groups? {parts : List (List Char)} {values : List Nat} (h : groups? parts = some values) :
    ∀ part ∈ parts, ∀ c ∈ part, isHex c = true := by
  rcases Nat.lt_trichotomy ((inner parts).count []) 1 with hcount | hcount | hcount
  · rw [groups?_of_no_gap (by omega)] at h
    split_ifs at h
    exact fun part hpart => hex_of_group? (isSome_of_mapM h part hpart)
  · rw [groups?_of_gap hcount] at h
    obtain ⟨first, before, after, last, hparts, hlength⟩ := eq_append_of_gap (List.count_pos_iff.1 (hcount ▸ Nat.one_pos))
    have htake : parts.take (1 + before.length) = first :: before := by
      rw [hparts]
      exact List.take_left' (by simp [Nat.add_comm])
    have hdrop : parts.drop (1 + before.length + 1) = after ++ [last] := by
      rw [hparts, List.append_cons]
      exact List.drop_left' (by simp; omega)
    have hhead : parts.head? = some first := by rw [hparts]; rfl
    have hlast : parts.getLast? = some last := by
      rw [hparts, ← List.cons_append, ← List.append_assoc]
      exact List.getLast?_concat
    rw [hlength, readGap?, htake, hdrop, hhead, hlast] at h
    obtain ⟨high, hhigh, h⟩ := Option.bind_eq_some_iff.1 h
    obtain ⟨low, hlow, h⟩ := Option.bind_eq_some_iff.1 h
    unfold fillGap? at h
    split_ifs at h
    obtain ⟨highValues, hhighValues, h⟩ := Option.bind_eq_some_iff.1 h
    obtain ⟨lowValues, hlowValues, -⟩ := Option.map_eq_some_iff.1 h
    intro part hpart
    rw [hparts, List.mem_append] at hpart
    rcases hpart with hpart | hpart
    · exact hex_of_side hhigh hhighValues List.mem_cons_self part hpart
    · rcases List.mem_cons.1 hpart with rfl | hpart
      · simp
      · exact hex_of_side hlow hlowValues (by simp) part hpart
  · rw [groups?_of_gaps hcount] at h
    cases h

/-! ## The whole text -/

/-- Parts that hold hexadecimal digits once an address of four decimal parts is expanded hold these and dots before. -/
theorem plain_of_expandQuad? {parts parts' : List (List Char)} (h : expandQuad? parts = some parts')
    (hhex : ∀ part ∈ parts', ∀ c ∈ part, isHex c = true) : ∀ part ∈ parts, ∀ c ∈ part, isHex c = true ∨ c = '.' := by
  unfold expandQuad? at h
  cases hlast : parts.getLast? with
  | none =>
    rw [hlast] at h
    cases h
  | some last =>
    rw [hlast] at h
    simp only at h
    obtain ⟨front, rfl⟩ := List.getLast?_eq_some_iff.1 hlast
    split_ifs at h with hdot
    · obtain ⟨n, hquad, h⟩ := Option.bind_eq_some_iff.1 h
      cases h
      rw [List.dropLast_concat] at hhex
      intro part hpart c hc
      rcases List.mem_append.1 hpart with hpart | hpart
      · exact .inl (hhex part (List.mem_append_left _ hpart) c hc)
      · rw [List.mem_singleton] at hpart
        subst hpart
        exact (digits_of_quad? hquad c hc).imp_left isHex_of_isAsciiDigit
    · cases h
      exact fun part hpart c hc => .inl (hhex part hpart c hc)

/-- What an address in groups is read from. -/
theorem groupsValue?_eq_some {cs : List Char} {n : Nat} (h : groupsValue? cs = some n) :
    3 ≤ (Text.splitOnChar ':' cs).length ∧ ∃ parts, expandQuad? (Text.splitOnChar ':' cs) = some parts ∧
      parts.length ≤ groupCount + 1 ∧ ∃ values, groups? parts = some values ∧ values.foldl (fun n v => n * 65536 + v) 0 = n := by
  unfold groupsValue? at h
  simp only at h
  split_ifs at h with hthree
  obtain ⟨parts, hparts, h⟩ := Option.bind_eq_some_iff.1 h
  split_ifs at h with hmany
  obtain ⟨values, hvalues, h⟩ := Option.bind_eq_some_iff.1 h
  exact ⟨Nat.not_lt.1 hthree, parts, hparts, Nat.not_lt.1 hmany, values, hvalues, Option.some.inj h⟩

/-- The text of an address in groups holds nothing but hexadecimal digits and the two separators. -/
theorem plain_of_groupsValue? {cs : List Char} {n : Nat} (h : groupsValue? cs = some n) : ∀ c ∈ cs, isPlain c = true := by
  obtain ⟨-, parts, hparts, -, values, hvalues, -⟩ := groupsValue?_eq_some h
  intro c hc
  rcases Text.mem_part_of_mem ':' hc with rfl | ⟨part, hpart, hc⟩
  · rfl
  · rcases plain_of_expandQuad? hparts (hex_of_groups? hvalues) part hpart c hc with hhex | rfl
    · simp [isPlain, hhex]
    · rfl

/-! ## Lower case -/

/-- The characters of addresses are in ASCII. -/
theorem ascii_of_isPlain {c : Char} (h : isPlain c = true) : c.toNat < 0x80 := by
  by_contra hascii
  have hlarge {a b : Char} (hb : b.toNat < 0x80) : ¬(a ≤ c && c ≤ b) = true := fun hbetween => by
    have := ((Text.between_iff a b c).1 hbetween).2
    omega
  simp only [isPlain, isHex, Bytes.hexValue?, if_neg (hlarge (a := '0') (b := '9') (by decide)),
    if_neg (hlarge (a := 'a') (b := 'f') (by decide)), if_neg (hlarge (a := 'A') (b := 'F') (by decide)), Option.isSome_none,
    Bool.false_or, Bool.or_eq_true, beq_iff_eq] at h
  rcases h with rfl | rfl <;> exact hascii (by decide)

/-- The lower-case form of a character of an address has the same value, and is not the letter that marks an address of a future
kind. -/
theorem lowerChar_plain {c : Char} (h : isPlain c = true) :
    c ≠ 'Σ' ∧ c ≠ 'İ' ∧ Bytes.hexValue? (Text.lowerChar c) = Bytes.hexValue? c ∧ Text.lowerChar c ≠ 'v' :=
  Text.forall_ascii (p := fun c => isPlain c = true →
    c ≠ 'Σ' ∧ c ≠ 'İ' ∧ Bytes.hexValue? (Text.lowerChar c) = Bytes.hexValue? c ∧ Text.lowerChar c ≠ 'v')
    (by decide +kernel) (ascii_of_isPlain h) h

/-- A hexadecimal digit has the same value in lower case. -/
theorem hexValue?_lowerChar {c : Char} (h : isHex c = true) : Bytes.hexValue? (Text.lowerChar c) = Bytes.hexValue? c :=
  (lowerChar_plain (by simp [isPlain, h])).2.2.1

/-- Digits and separators have no letter case. -/
theorem map_lowerChar_digits {cs : List Char} (h : ∀ c ∈ cs, Text.isAsciiDigit c = true ∨ c = '.') : cs.map Text.lowerChar = cs := by
  refine (List.map_congr_left fun c hc => ?_).trans (List.map_id _)
  rcases h c hc with hdigit | rfl
  · exact Text.forall_ascii (p := fun c => Text.isAsciiDigit c = true → Text.lowerChar c = c) (by decide +kernel)
      (ascii_of_isPlain (by simp [isPlain, isHex_of_isAsciiDigit hdigit])) hdigit
  · rfl

/-- Hexadecimal digits are written in lower case. -/
theorem map_lowerChar_toDigits (n : Nat) : (Nat.toDigits 16 n).map Text.lowerChar = Nat.toDigits 16 n := by
  have hdigit : ∀ d < 16, Text.lowerChar d.digitChar = d.digitChar := by decide +kernel
  induction n using Nat.strongRecOn with
  | ind n ih =>
    rcases Nat.lt_or_ge n 16 with hn | hn
    · rw [Nat.toDigits_of_lt_base hn, List.map_singleton, hdigit n hn]
    · rw [Nat.toDigits_of_base_le (by decide) hn, List.map_append, ih (n / 16) (by omega), List.map_singleton,
        hdigit (n % 16) (Nat.mod_lt _ (by decide))]

theorem mapM_congr {α β γ : Type} {f : α → Option β} {g : γ → Option β} {e : α → γ} {xs : List α} (h : ∀ x ∈ xs, g (e x) = f x) :
    (xs.map e).mapM g = xs.mapM f := by
  induction xs with
  | nil => rfl
  | cons x xs ih =>
    rw [List.map_cons, List.mapM_cons, List.mapM_cons, h x List.mem_cons_self, ih fun y hy => h y (List.mem_cons_of_mem _ hy)]

/-- A group has the same value in lower case. -/
theorem group?_lower {part : List Char} (h : ∀ c ∈ part, isHex c = true) : group? (part.map Text.lowerChar) = group? part := by
  unfold group?
  rw [mapM_congr fun c hc => hexValue?_lowerChar (h c hc)]
  simp

section Groups

variable {parts : List (List Char)}

/-- The groups on a side of the gap are the same in lower case. -/
theorem sideOfGap?_map (outer : Option (List Char)) (groups : List (List Char)) :
    sideOfGap? (outer.map (List.map Text.lowerChar)) (groups.map (List.map Text.lowerChar)) =
      (sideOfGap? outer groups).map (List.map (List.map Text.lowerChar)) := by
  have houter : (outer.map (List.map Text.lowerChar) == some []) = (outer == some []) := by
    rcases outer with - | - | - <;> rfl
  unfold sideOfGap?
  rw [houter, List.length_map]
  split_ifs <;> rfl

theorem mapM_group?_lower (h : ∀ part ∈ parts, ∀ c ∈ part, isHex c = true) :
    (parts.map (List.map Text.lowerChar)).mapM group? = parts.mapM group? :=
  mapM_congr fun part hpart => group?_lower (h part hpart)

theorem inner_map : inner (parts.map (List.map Text.lowerChar)) = (inner parts).map (List.map Text.lowerChar) := by
  unfold inner
  rw [← List.map_drop, List.map_dropLast]

theorem count_inner_map : (inner (parts.map (List.map Text.lowerChar))).count [] = (inner parts).count [] := by
  rw [inner_map, List.count_eq_countP, List.count_eq_countP, List.countP_map]
  congr 1
  funext part
  cases part <;> rfl

theorem takeWhile_inner_map :
    ((inner (parts.map (List.map Text.lowerChar))).takeWhile (· ≠ [])).length = ((inner parts).takeWhile (· ≠ [])).length := by
  rw [inner_map, List.takeWhile_map, List.length_map]
  congr 2
  funext part
  cases part <;> rfl

/-- The groups on a side of the gap are among all groups. -/
theorem subset_of_sideOfGap? {outer : Option (List Char)} {groups side : List (List Char)} (h : sideOfGap? outer groups = some side) :
    ∀ part ∈ side, part ∈ groups := by
  unfold sideOfGap? at h
  split_ifs at h <;> cases h
  · simp
  · exact fun _ h => h

/-- What is read around a gap is the same in lower case. -/
theorem readGap?_lower (h : ∀ part ∈ parts, ∀ c ∈ part, isHex c = true) (gap : Nat) :
    readGap? (parts.map (List.map Text.lowerChar)) gap = readGap? parts gap := by
  unfold readGap?
  rw [List.head?_map, List.getLast?_map, ← List.map_take, ← List.map_drop, sideOfGap?_map, sideOfGap?_map, Option.bind_map]
  refine Option.bind_congr fun high hhigh => ?_
  rw [Function.comp_apply, Option.bind_map]
  refine Option.bind_congr fun low hlow => ?_
  have hhigh' := fun part hpart => h part (List.mem_of_mem_take (subset_of_sideOfGap? hhigh part hpart))
  have hlow' := fun part hpart => h part (List.mem_of_mem_drop (subset_of_sideOfGap? hlow part hpart))
  simp only [Function.comp_apply, fillGap?, List.length_map, mapM_group?_lower hhigh', mapM_group?_lower hlow']

/-- All groups together are read alike in lower case. -/
theorem groups?_lower (h : ∀ part ∈ parts, ∀ c ∈ part, isHex c = true) :
    groups? (parts.map (List.map Text.lowerChar)) = groups? parts := by
  rcases Nat.lt_trichotomy ((inner parts).count []) 1 with hcount | hcount | hcount
  · have hzero : (inner parts).count [] = 0 := by omega
    rw [groups?_of_no_gap (count_inner_map.trans hzero), groups?_of_no_gap hzero, List.length_map, mapM_group?_lower h]
  · rw [groups?_of_gap (count_inner_map.trans hcount), groups?_of_gap hcount, takeWhile_inner_map, readGap?_lower h]
  · rw [groups?_of_gaps (by rwa [count_inner_map]), groups?_of_gaps hcount]

/-- An address of four decimal parts at the end is expanded to the same groups. -/
theorem expandQuad?_lower {parts' : List (List Char)} (h : expandQuad? parts = some parts') :
    expandQuad? (parts.map (List.map Text.lowerChar)) = some (parts'.map (List.map Text.lowerChar)) := by
  unfold expandQuad? at h ⊢
  rw [List.getLast?_map]
  cases hlast : parts.getLast? with
  | none =>
    rw [hlast] at h
    cases h
  | some last =>
    rw [hlast] at h
    simp only [Option.map_some] at h ⊢
    have hdot : (last.map Text.lowerChar).contains '.' = last.contains '.' := by
      rw [List.contains_eq_mem, List.contains_eq_mem, decide_eq_decide]
      constructor
      · intro hmem
        obtain ⟨c, hc, hlower⟩ := List.mem_map.1 hmem
        rwa [← Text.eq_of_lowerChar_eq (by decide +kernel) hlower]
      · exact fun hmem => List.mem_map.2 ⟨'.', hmem, rfl⟩
    rw [hdot]
    split_ifs at h ⊢ with hquad
    · obtain ⟨n, hn, h⟩ := Option.bind_eq_some_iff.1 h
      rw [map_lowerChar_digits (digits_of_quad? hn), hn]
      cases h
      simp [map_lowerChar_toDigits]
    · cases h
      rfl

end Groups

/-- In lower case, a text writes the same address in groups. -/
theorem groupsValue?_lower {cs : List Char} {n : Nat} (h : groupsValue? cs = some n) : groupsValue? (Text.lowerFrom [] cs) = some n := by
  have hplain := plain_of_groupsValue? h
  obtain ⟨hthree, parts, hparts, hmany, values, hvalues, hn⟩ := groupsValue?_eq_some h
  have hcolon : ∀ c ∈ cs, Text.lowerChar c = ':' ↔ c = ':' := fun c _ =>
    ⟨Text.eq_of_lowerChar_eq (by decide +kernel), by rintro rfl; rfl⟩
  rw [Text.lowerFrom_eq_map fun c hc => ⟨(lowerChar_plain (hplain c hc)).1, (lowerChar_plain (hplain c hc)).2.1⟩, groupsValue?,
    Text.splitOnChar_map hcolon]
  simp only [List.length_map]
  rw [if_neg (Nat.not_lt.2 hthree), expandQuad?_lower hparts, Option.bind_eq_bind, Option.bind_some, List.length_map,
    if_neg (Nat.not_lt.2 hmany), groups?_lower (hex_of_groups? hvalues), hvalues, Option.bind_eq_bind, Option.bind_some, hn]

/-- An address in groups, whatever its zone, is not one of four decimal parts. -/
theorem quad?_eq_none_of_colon {cs : List Char} (h : ':' ∈ cs) : quad? cs = none := by
  cases hquad : quad? cs with
  | none => rfl
  | some n => rcases digits_of_quad? hquad ':' h with h | h <;> exact absurd h (by decide)

/-- An address in groups has a colon. -/
theorem colon_mem_of_groupsValue? {cs : List Char} {n : Nat} (h : groupsValue? cs = some n) : ':' ∈ cs := by
  obtain ⟨hthree, -⟩ := groupsValue?_eq_some h
  by_contra hcolon
  rw [Text.splitOnChar_of_not_mem hcolon] at hthree
  simp at hthree

end SignedCall.Address
