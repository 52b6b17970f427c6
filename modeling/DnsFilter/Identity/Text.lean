import DnsFilter.Identity.IP

/-!
# Printed addresses

`ParseIP` and `IP.String` of the package `net`.

* `string4`, `parseIPv4Fields_string4`: the dotted form;
* `string6`, `parseIPv6_string6`: the colon form, whose longest run of zero groups is
  printed as `::`;
* `canonical_parseIP_string`: an address that is printed and parsed is the same up to its
  form, so that two addresses print the same exactly when their canonical forms agree
  (`string_eq_string_iff`).
-/

namespace DnsFilter

open GoString

/-! ### Numerals -/

/-- The digits of a number in base 10 or 16 are what the parser reads. -/
theorem digitValue_digitChar {b d : ℕ} (hb : b ≤ 16) (hd : d < b) :
    digitValue b d.digitChar = some d := by
  have hall : ∀ b : Fin 17, ∀ d : Fin 16, (d : ℕ) < b →
      digitValue b (d : ℕ).digitChar = some (d : ℕ) := by decide
  exact hall ⟨b, by omega⟩ ⟨d, by omega⟩ hd

theorem exists_digit_of_mem_toDigits {b n : ℕ} (hb : 1 < b) {c : Char}
    (hc : c ∈ Nat.toDigits b n) : ∃ d < b, c = d.digitChar := by
  induction n using Nat.strong_induction_on with
  | _ n ih =>
    rw [Nat.toDigits_eq_if hb] at hc
    split_ifs at hc with h
    · exact ⟨n, h, List.mem_singleton.1 hc⟩
    · rcases List.mem_append.1 hc with hc | hc
      · exact ih _ (Nat.div_lt_self (by omega) hb) hc
      · exact ⟨n % b, Nat.mod_lt _ (by omega), List.mem_singleton.1 hc⟩

theorem number_concat (b : ℕ) (s : GoString) (c : Char) :
    number b (s ++ [c]) = number b s * b + (digitValue b c).getD 0 := by
  simp [number]

/-- Reading a printed number gives it back. -/
theorem number_toDigits {b : ℕ} (hb : 1 < b) (hb' : b ≤ 16) (n : ℕ) :
    number b (Nat.toDigits b n) = n := by
  induction n using Nat.strong_induction_on with
  | _ n ih =>
    rw [Nat.toDigits_eq_if hb]
    split_ifs with h
    · simp [number, digitValue_digitChar hb' h]
    · rw [number_concat, ih _ (Nat.div_lt_self (by omega) hb),
        digitValue_digitChar hb' (Nat.mod_lt _ (by omega)), Option.getD_some, Nat.div_add_mod']

theorem allDigits_toDigits {b : ℕ} (hb : 1 < b) (hb' : b ≤ 16) (n : ℕ) :
    allDigits b (Nat.toDigits b n) = true := by
  rw [allDigits, List.all_eq_true]
  intro c hc
  obtain ⟨d, hd, rfl⟩ := exists_digit_of_mem_toDigits hb hc
  rw [digitValue_digitChar hb' hd, Option.isSome_some]

/-- A printed number has none of the separators of an address. -/
theorem not_mem_toDigits {b : ℕ} (hb : 1 < b) (hb' : b ≤ 16) (n : ℕ) {c : Char}
    (hc : digitValue 16 c = none) : c ∉ Nat.toDigits b n := by
  intro hmem
  obtain ⟨d, hd, rfl⟩ := exists_digit_of_mem_toDigits hb hmem
  rw [digitValue_digitChar le_rfl (lt_of_lt_of_le hd hb')] at hc
  cases hc

/-! ### IPv4 -/

/-- The dotted form. -/
def string4 (a : BitVec 32) : GoString :=
  join ([24, 16, 8, 0].map fun i => Nat.toDigits 10 (a.extractLsb' i 8).toNat) '.'

theorem parseIPv4Field_toDigits (x : BitVec 8) :
    parseIPv4Field (Nat.toDigits 10 x.toNat) = some x := by
  have hall : ∀ n : Fin 256, parseIPv4Field (Nat.toDigits 10 (n : ℕ)) =
      some (BitVec.ofNat 8 n) := by decide +kernel
  simpa using hall ⟨x.toNat, x.isLt⟩

theorem parseIPv4Fields_string4 (a : BitVec 32) : parseIPv4Fields (string4 a) = some a := by
  have hsplit : split (string4 a) '.' =
      [24, 16, 8, 0].map fun i => Nat.toDigits 10 (a.extractLsb' i 8).toNat := by
    refine List.splitOn_intercalate '.' ?_ (by simp)
    intro part hpart
    obtain ⟨i, -, rfl⟩ := List.mem_map.1 hpart
    exact not_mem_toDigits (by norm_num) (by norm_num) _ (by decide)
  have happend : a.extractLsb' 24 8 ++ a.extractLsb' 16 8 ++ a.extractLsb' 8 8 ++
      a.extractLsb' 0 8 = a := by
    refine BitVec.eq_of_getLsbD_eq fun i hi => ?_
    simp only [BitVec.getLsbD_append, BitVec.getLsbD_extractLsb']
    grind
  rw [parseIPv4Fields, hsplit]
  simp only [List.map_cons, List.map_nil, parseIPv4Field_toDigits, Option.bind_eq_bind,
    Option.bind_some, Option.pure_def, happend]

/-! ### IPv6 -/

/-- The 16-bit groups of an address. -/
def groups16 (a : BitVec 128) : List (BitVec 16) :=
  [112, 96, 80, 64, 48, 32, 16, 0].map fun i => a.extractLsb' i 16

/-- `appendHex`. -/
def hex (g : BitVec 16) : GoString := Nat.toDigits 16 g.toNat

/-- The start and the end of the longest run of zero groups, the first one of its length; both
are 255 if no run has two groups. -/
def zeroRun (groups : List (BitVec 16)) : ℕ × ℕ :=
  (List.range 8).foldl (fun best i =>
    let l := ((groups.drop i).takeWhile (· = 0)).length
    -- a later run has to be longer than the best one so far
    if 2 ≤ l ∧ best.2 - best.1 < l then (i, i + l) else best) (255, 255)

/-- The colon form; `::` takes the place of the longest run of zero groups. -/
def string6 (a : BitVec 128) : GoString :=
  let groups := groups16 a
  let (zeroStart, zeroEnd) := zeroRun groups
  if zeroStart < 8 then
    join ((groups.take zeroStart).map hex) ':' ++ "::".toList ++
      join ((groups.drop zeroEnd).map hex) ':'
  else join (groups.map hex) ':'

example : string6 0x20010db8000000000000000000000001#128 = "2001:db8::1".toList := by
  decide +kernel

/-- The address with given groups. -/
def ofGroups (groups : List (BitVec 16)) : BitVec 128 :=
  groups.foldl (fun a g => a <<< 16 ||| g.setWidth 128) 0

theorem ofGroups_groups16 (a : BitVec 128) : ofGroups (groups16 a) = a := by
  have hnext : ∀ n, (a >>> (n + 16)) <<< 16 ||| (a.extractLsb' n 16).setWidth 128 = a >>> n := by
    intro n
    refine BitVec.eq_of_getLsbD_eq fun i hi => ?_
    simp only [BitVec.getLsbD_or, BitVec.getLsbD_shiftLeft, BitVec.getLsbD_ushiftRight,
      BitVec.getLsbD_setWidth, BitVec.getLsbD_extractLsb']
    by_cases h : i < 16
    · simp [h, hi]
    · simp [h, hi, show n + 16 + (i - 16) = n + i by omega]
  have htop : a >>> 128 = 0 := by
    refine BitVec.eq_of_getLsbD_eq fun i hi => ?_
    simp
  have hbottom : a >>> 0 = a := by simp
  simp only [ofGroups, groups16, List.map_cons, List.map_nil, List.foldl_cons, List.foldl_nil]
  rw [← htop, hnext 112, hnext 96, hnext 80, hnext 64, hnext 48, hnext 32, hnext 16, hnext 0,
    hbottom]

/-- The groups with a run of zeros between `zeroStart` and `zeroEnd`. -/
def ZeroBetween (groups : List (BitVec 16)) (zeroStart zeroEnd : ℕ) : Prop :=
  groups = groups.take zeroStart ++ List.replicate (zeroEnd - zeroStart) 0 ++
    groups.drop zeroEnd ∧ zeroStart + 2 ≤ zeroEnd ∧ zeroEnd ≤ groups.length

theorem zeroBetween_of_takeWhile {groups : List (BitVec 16)} {i : ℕ}
    (h : 2 ≤ ((groups.drop i).takeWhile (· = 0)).length) :
    ZeroBetween groups i (i + ((groups.drop i).takeWhile (· = 0)).length) := by
  have hzero : (groups.drop i).takeWhile (· = 0) =
      List.replicate ((groups.drop i).takeWhile (· = 0)).length 0 := by
    refine List.eq_replicate_iff.2 ⟨rfl, fun g hg => ?_⟩
    simpa using List.mem_takeWhile_imp hg
  have hle := (List.takeWhile_prefix (p := (· = (0 : BitVec 16))) (l := groups.drop i)).length_le
  rw [List.length_drop] at hle
  refine ⟨?_, by omega, by omega⟩
  have hrest := List.prefix_iff_eq_append.1
    (List.takeWhile_prefix (p := (· = (0 : BitVec 16))) (l := groups.drop i))
  rw [Nat.add_sub_cancel_left, ← hzero, ← List.drop_drop, List.append_assoc, hrest,
    List.take_append_drop]

/-- What `zeroRun` finds is a run of zeros. -/
theorem zeroRun_spec (groups : List (BitVec 16)) :
    zeroRun groups = (255, 255) ∨
      ZeroBetween groups (zeroRun groups).1 (zeroRun groups).2 := by
  refine List.foldlRecOn (motive := fun best => best = (255, 255) ∨
    ZeroBetween groups best.1 best.2) (List.range 8) _ (.inl rfl) ?_
  intro best hbest i _
  dsimp only
  split_ifs with h
  · exact .inr (zeroBetween_of_takeWhile h.1)
  · exact hbest

/-! ### The parser on printed groups -/

theorem hex_ne_nil (g : BitVec 16) : hex g ≠ [] := Nat.toDigits_ne_nil

theorem length_hex_le (g : BitVec 16) : (hex g).length ≤ 4 :=
  (Nat.length_toDigits_le_iff (by norm_num) (by norm_num)).2 g.isLt

theorem isSome_digitValue_of_mem_hex {g : BitVec 16} {c : Char} (hc : c ∈ hex g) :
    (digitValue 16 c).isSome = true :=
  List.all_eq_true.1 (allDigits_toDigits (by norm_num) (by norm_num) g.toNat) c hc

theorem number_hex (g : BitVec 16) : BitVec.ofNat 16 (number 16 (hex g)) = g := by
  rw [hex, number_toDigits (by norm_num) (by norm_num), BitVec.ofNat_toNat, BitVec.setWidth_eq]

theorem takeWhile_hex (g : BitVec 16) (rest : GoString) :
    (hex g ++ ':' :: rest).takeWhile (fun c => (digitValue 16 c).isSome) = hex g := by
  rw [List.takeWhile_append_of_pos fun c hc => isSome_digitValue_of_mem_hex hc,
    List.takeWhile_cons_of_neg (by decide), List.append_nil]

theorem join_hex_cons (g g' : BitVec 16) (gs : List (BitVec 16)) :
    join ((g :: g' :: gs).map hex) ':' = hex g ++ ':' :: join ((g' :: gs).map hex) ':' := by
  simp [join, List.intercalate_cons_cons]

theorem join_hex_singleton (g : BitVec 16) : join ([g].map hex) ':' = hex g := by
  simp [join]

/-- A printed list of groups starts with a digit. -/
theorem join_hex_head {gs : List (BitVec 16)} (h : gs ≠ []) :
    ∃ c s, join (gs.map hex) ':' = c :: s ∧ (digitValue 16 c).isSome = true := by
  obtain ⟨g, gs, rfl⟩ := List.exists_cons_of_ne_nil h
  obtain ⟨c, s, hc⟩ := List.exists_cons_of_ne_nil (hex_ne_nil g)
  have hdigit : (digitValue 16 c).isSome = true :=
    isSome_digitValue_of_mem_hex (g := g) (by simp [hc])
  cases gs with
  | nil => exact ⟨c, s, by rw [join_hex_singleton, hc], hdigit⟩
  | cons g' gs =>
    refine ⟨c, s ++ ':' :: join ((g' :: gs).map hex) ':', ?_, hdigit⟩
    rw [join_hex_cons, hc, List.cons_append]

section Loop

variable (n : ℕ) (g : BitVec 16) (groups : List (BitVec 16)) (ellipsis : Option ℕ)

/-- A group at the end. -/
theorem parseIPv6Loop_last :
    parseIPv6Loop (n + 1) (hex g) groups ellipsis = some (groups ++ [g], ellipsis, []) := by
  have htake := List.takeWhile_eq_self_iff.2 fun c (hc : c ∈ hex g) =>
    isSome_digitValue_of_mem_hex hc
  rw [parseIPv6Loop]
  simp [htake, hex_ne_nil, (length_hex_le g).not_gt, number_hex]

/-- A group before `::`. -/
theorem parseIPv6Loop_ellipsis (rest : GoString) :
    parseIPv6Loop (n + 1) (hex g ++ ':' :: ':' :: rest) groups none =
      if rest = [] then some (groups ++ [g], some (groups.length + 1), [])
      else parseIPv6Loop n rest (groups ++ [g]) (some (groups.length + 1)) := by
  rw [parseIPv6Loop]
  simp [takeWhile_hex, hex_ne_nil, (length_hex_le g).not_gt, number_hex]

/-- A group before another one. -/
theorem parseIPv6Loop_colon {c : Char} (s : GoString) (hc : c ≠ ':') :
    parseIPv6Loop (n + 1) (hex g ++ ':' :: c :: s) groups ellipsis =
      parseIPv6Loop n (c :: s) (groups ++ [g]) ellipsis := by
  rw [parseIPv6Loop]
  simp [takeWhile_hex, hex_ne_nil, (length_hex_le g).not_gt, number_hex, hc]

/-- The loop reads printed groups to the end. -/
theorem parseIPv6Loop_join {gs : List (BitVec 16)} (hne : gs ≠ []) (hn : gs.length ≤ n) :
    parseIPv6Loop n (join (gs.map hex) ':') groups ellipsis =
      some (groups ++ gs, ellipsis, []) := by
  induction gs generalizing n groups with
  | nil => exact absurd rfl hne
  | cons g gs ih =>
    obtain ⟨n, rfl⟩ := Nat.exists_eq_add_of_lt (Nat.lt_of_lt_of_le (Nat.succ_pos _) hn)
    rw [Nat.zero_add]
    cases gs with
    | nil => rw [join_hex_singleton, parseIPv6Loop_last]
    | cons g' gs =>
      -- the next group starts with a digit, so its colon is not the first of `::`
      obtain ⟨c, s, hs, hc⟩ := join_hex_head (List.cons_ne_nil g' gs)
      have hcolon : c ≠ ':' := by
        rintro rfl
        cases hc
      rw [join_hex_cons, hs, parseIPv6Loop_colon _ _ _ _ _ hcolon, ← hs,
        ih _ _ (by simp) (by simpa using hn), List.append_assoc, List.singleton_append]

/-- The loop reads printed groups up to `::`. -/
theorem parseIPv6Loop_join_ellipsis {gs : List (BitVec 16)} (hne : gs ≠ [])
    (hn : gs.length ≤ n) (rest : GoString) :
    parseIPv6Loop n (join (gs.map hex) ':' ++ ':' :: ':' :: rest) groups none =
      if rest = [] then some (groups ++ gs, some (groups.length + gs.length), [])
      else parseIPv6Loop (n - gs.length) rest (groups ++ gs)
        (some (groups.length + gs.length)) := by
  induction gs generalizing n groups with
  | nil => exact absurd rfl hne
  | cons g gs ih =>
    obtain ⟨n, rfl⟩ := Nat.exists_eq_add_of_lt (Nat.lt_of_lt_of_le (Nat.succ_pos _) hn)
    rw [Nat.zero_add]
    cases gs with
    | nil => rw [join_hex_singleton, parseIPv6Loop_ellipsis]; rfl
    | cons g' gs =>
      obtain ⟨c, s, hs, hc⟩ := join_hex_head (List.cons_ne_nil g' gs)
      have hcolon : c ≠ ':' := by
        rintro rfl
        cases hc
      have hlength : (groups ++ [g]).length + (g' :: gs).length =
          groups.length + (g :: g' :: gs).length := by
        simp only [List.length_append, List.length_cons, List.length_nil]
        omega
      rw [join_hex_cons, hs, List.append_assoc, List.cons_append, List.cons_append,
        parseIPv6Loop_colon _ _ _ _ _ hcolon, ← List.cons_append, ← hs,
        ih _ _ (by simp) (by simpa using hn), hlength, List.append_assoc, List.singleton_append,
        List.length_cons (a := g), Nat.add_sub_add_right]

end Loop

/-! ### The parser on printed addresses -/

theorem hasPrefix_join_hex {gs : List (BitVec 16)} (h : gs ≠ []) (rest : GoString) :
    hasPrefix (join (gs.map hex) ':' ++ rest) [':', ':'] = false := by
  obtain ⟨c, s, hs, hc⟩ := join_hex_head h
  have hcolon : ':' ≠ c := by
    rintro rfl
    cases hc
  rw [hs, hasPrefix]
  simp [List.isPrefixOf, hcolon]

theorem join_hex_ne_nil {gs : List (BitVec 16)} (h : gs ≠ []) : join (gs.map hex) ':' ≠ [] := by
  obtain ⟨c, s, hs, -⟩ := join_hex_head h
  simp [hs]

/-- Groups printed in full. -/
theorem parseIPv6_full {gs : List (BitVec 16)} (h : gs.length = 8) :
    parseIPv6 (join (gs.map hex) ':') = some (ofGroups gs) := by
  have hne : gs ≠ [] := by
    rintro rfl
    cases h
  have hprefix := hasPrefix_join_hex hne []
  rw [List.append_nil] at hprefix
  simp [parseIPv6, hprefix, parseIPv6Loop_join 8 [] none hne h.le, h, ofGroups]

/-- Groups after a leading `::`. -/
theorem parseIPv6_leading {gs : List (BitVec 16)} (h : gs.length < 8) :
    parseIPv6 (':' :: ':' :: join (gs.map hex) ':') =
      some (ofGroups (List.replicate (8 - gs.length) 0 ++ gs)) := by
  have hprefix : ∀ s, hasPrefix (':' :: ':' :: s) [':', ':'] = true := by
    intro s
    simp [hasPrefix, List.isPrefixOf]
  by_cases hne : gs = []
  · subst hne
    decide
  · simp [parseIPv6, hprefix, join_hex_ne_nil hne, parseIPv6Loop_join 8 [] (some 0) hne h.le, h,
      ofGroups]

/-- Groups around an inner `::`. -/
theorem parseIPv6_inner {gs gs' : List (BitVec 16)} (hne : gs ≠ [])
    (h : gs.length + gs'.length < 8) :
    parseIPv6 (join (gs.map hex) ':' ++ ':' :: ':' :: join (gs'.map hex) ':') =
      some (ofGroups (gs ++ List.replicate (8 - (gs.length + gs'.length)) 0 ++ gs')) := by
  have hloop : parseIPv6Loop 8 (join (gs.map hex) ':' ++ ':' :: ':' :: join (gs'.map hex) ':')
      [] none = some (gs ++ gs', some gs.length, []) := by
    rw [parseIPv6Loop_join_ellipsis _ _ hne (by omega), List.nil_append, List.length_nil,
      Nat.zero_add]
    by_cases hne' : gs' = []
    · subst hne'
      rw [List.append_nil]
      rfl
    · rw [if_neg (join_hex_ne_nil hne'), parseIPv6Loop_join _ _ _ hne' (by omega)]
  simp [parseIPv6, hasPrefix_join_hex hne, hloop, h, ofGroups]

/-- Groups whose run of zeros is left out. -/
theorem parseIPv6_run {gs : List (BitVec 16)} (h : gs.length = 8) {zeroStart zeroEnd : ℕ}
    (hzero : ZeroBetween gs zeroStart zeroEnd) :
    parseIPv6 (join ((gs.take zeroStart).map hex) ':' ++ "::".toList ++
      join ((gs.drop zeroEnd).map hex) ':') = some (ofGroups gs) := by
  obtain ⟨hgs, hlt, hle⟩ := hzero
  rw [h] at hle
  have hdrop : (gs.drop zeroEnd).length = 8 - zeroEnd := by rw [List.length_drop, h]
  have htake : (gs.take zeroStart).length = zeroStart := by
    rw [List.length_take, h]
    omega
  rw [List.append_assoc]
  conv_rhs => rw [hgs]
  -- a run at the start makes the text begin with `::`
  by_cases hstart : zeroStart = 0
  · subst hstart
    have hrun : 8 - (8 - zeroEnd) = zeroEnd := by omega
    have hfew : (gs.drop zeroEnd).length < 8 := by omega
    have hleading := parseIPv6_leading hfew
    rwa [hdrop, hrun] at hleading
  · have hrun : 8 - (zeroStart + (8 - zeroEnd)) = zeroEnd - zeroStart := by omega
    have hne : gs.take zeroStart ≠ [] := List.ne_nil_of_length_pos (by omega)
    have hfew : (gs.take zeroStart).length + (gs.drop zeroEnd).length < 8 := by omega
    have hinner := parseIPv6_inner hne hfew
    rwa [htake, hdrop, hrun] at hinner

/-- **A printed IPv6 address is read back.** -/
theorem parseIPv6_string6 (a : BitVec 128) : parseIPv6 (string6 a) = some a := by
  have hlength : (groups16 a).length = 8 := rfl
  conv_rhs => rw [← ofGroups_groups16 a]
  rw [string6]
  rcases zeroRun_spec (groups16 a) with hrun | hrun
  · simp only [hrun]
    exact parseIPv6_full hlength
  · dsimp only
    rw [if_pos (by have := hrun.2; omega)]
    exact parseIPv6_run hlength hrun

/-! ### Addresses -/

/-- The 16-byte form of an IPv4 address. -/
def mapped (a : BitVec 32) : BitVec 128 := 0xffff#96 ++ a

/-- `ParseIP`: the first separator decides; zones are not accepted. -/
def parseIP (s : GoString) : IP :=
  match s.find? fun c => c = '.' ∨ c = ':' ∨ c = '%' with
  | some '.' => ((parseIPv4Fields s).map fun a => IP.v6 (mapped a)).getD .nil
  | some ':' => if '%' ∈ s then .nil else ((parseIPv6 s).map IP.v6).getD .nil
  | _ => .nil

/-- `IP.String`. -/
def IP.string (ip : IP) : GoString :=
  match ip.to4, ip with
  | some a, _ => string4 a
  | none, .v6 a => string6 a
  | none, _ => "<nil>".toList

theorem to4_mapped (a : BitVec 32) : (IP.v6 (mapped a)).to4 = some a := by
  have hhigh : mapped a >>> 32 = 0xffff#128 := by
    refine BitVec.eq_of_getLsbD_eq fun i hi => ?_
    simp only [mapped, BitVec.getLsbD_ushiftRight, BitVec.getLsbD_append]
    rw [if_neg (by omega), Nat.add_sub_cancel_left]
    interval_cases i <;> rfl
  have hlow : (mapped a).setWidth 32 = a := by
    refine BitVec.eq_of_getLsbD_eq fun i hi => ?_
    rw [BitVec.getLsbD_setWidth, mapped, BitVec.getLsbD_append]
    simp [hi]
  rw [IP.to4, if_pos hhigh, hlow]

/-- A parsed IPv4 address is the address. -/
theorem canonical_mapped (a : BitVec 32) : (IP.v6 (mapped a)).canonical = .v4 a := by
  rw [IP.canonical, to4_mapped]

theorem mem_join {parts : List GoString} {sep c : Char} (h : c ∈ join parts sep) :
    c = sep ∨ ∃ part ∈ parts, c ∈ part := by
  induction parts with
  | nil => cases h
  | cons part parts ih =>
    cases parts with
    | nil => exact .inr ⟨part, by simp, by simpa [join] using h⟩
    | cons part' parts =>
      rw [join, List.intercalate_cons_cons, List.append_assoc] at h
      rcases List.mem_append.1 h with h | h
      · exact .inr ⟨part, by simp, h⟩
      · rcases List.mem_append.1 h with h | h
        · exact .inl (List.mem_singleton.1 h)
        · rcases ih h with h | ⟨part, hpart, h⟩
          · exact .inl h
          · exact .inr ⟨part, List.mem_cons_of_mem _ hpart, h⟩

theorem mem_join_hex {gs : List (BitVec 16)} {c : Char} (h : c ∈ join (gs.map hex) ':') :
    c = ':' ∨ (digitValue 16 c).isSome = true := by
  rcases mem_join h with h | ⟨part, hpart, h⟩
  · exact .inl h
  · obtain ⟨g, -, rfl⟩ := List.mem_map.1 hpart
    exact .inr (isSome_digitValue_of_mem_hex h)

/-- An IPv6 address is printed with colons and digits. -/
theorem mem_string6 {a : BitVec 128} {c : Char} (h : c ∈ string6 a) :
    c = ':' ∨ (digitValue 16 c).isSome = true := by
  simp only [string6] at h
  split_ifs at h
  · rcases List.mem_append.1 h with h | h
    · rcases List.mem_append.1 h with h | h
      · exact mem_join_hex h
      · exact .inl (by simpa using h)
    · exact mem_join_hex h
  · exact mem_join_hex h

theorem colon_mem_string6 (a : BitVec 128) : ':' ∈ string6 a := by
  simp only [string6]
  split_ifs
  · simp
  · simp [groups16, join, List.intercalate_cons_cons]

/-- An IPv4 address is printed with dots and digits. -/
theorem mem_string4 {a : BitVec 32} {c : Char} (h : c ∈ string4 a) :
    c = '.' ∨ (digitValue 16 c).isSome = true := by
  rcases mem_join h with h | ⟨part, hpart, h⟩
  · exact .inl h
  · obtain ⟨i, -, rfl⟩ := List.mem_map.1 hpart
    obtain ⟨d, hd, rfl⟩ := exists_digit_of_mem_toDigits (by norm_num) h
    exact .inr (by rw [digitValue_digitChar le_rfl (by omega), Option.isSome_some])

theorem dot_mem_string4 (a : BitVec 32) : '.' ∈ string4 a := by
  simp [string4, join, List.intercalate_cons_cons]

/-- The first separator of a text with one kind of separator. -/
theorem find?_separator {s : GoString} {sep : Char} (hsep : sep = '.' ∨ sep = ':') (hmem : sep ∈ s)
    (h : ∀ c ∈ s, c = sep ∨ (digitValue 16 c).isSome = true) :
    s.find? (fun c => c = '.' ∨ c = ':' ∨ c = '%') = some sep := by
  have hsome : (s.find? fun c => c = '.' ∨ c = ':' ∨ c = '%').isSome = true :=
    List.find?_isSome.2 ⟨sep, hmem, by rcases hsep with rfl | rfl <;> rfl⟩
  obtain ⟨c, hc⟩ := Option.isSome_iff_exists.1 hsome
  rw [hc]
  have hfound : c = '.' ∨ c = ':' ∨ c = '%' := by simpa using List.find?_some hc
  -- a separator is no digit
  rcases h c (List.mem_of_find?_eq_some hc) with rfl | hdigit
  · rfl
  · rcases hfound with rfl | rfl | rfl <;> cases hdigit

theorem parseIP_string4 (a : BitVec 32) : parseIP (string4 a) = .v6 (mapped a) := by
  rw [parseIP, find?_separator (.inl rfl) (dot_mem_string4 a) fun _ hc => mem_string4 hc]
  simp [parseIPv4Fields_string4]

theorem find?_string6 (a : BitVec 128) :
    (string6 a).find? (fun c => c = '.' ∨ c = ':' ∨ c = '%') = some ':' :=
  find?_separator (.inr rfl) (colon_mem_string6 a) fun _ hc => mem_string6 hc

theorem parseIP_string6 (a : BitVec 128) : parseIP (string6 a) = .v6 a := by
  have hzone : '%' ∉ string6 a := by
    intro h
    rcases mem_string6 h with h | h <;> cases h
  rw [parseIP, find?_string6]
  simp [hzone, parseIPv6_string6]

/-- The printed form is that of the canonical address. -/
theorem string_of_to4 {ip : IP} {a : BitVec 32} (h : ip.to4 = some a) : ip.string = string4 a := by
  simp [IP.string, h]

theorem string_canonical (ip : IP) : ip.canonical.string = ip.string := by
  cases h : ip.to4 with
  | none => rw [IP.canonical, h]
  | some a => rw [IP.canonical, h, string_of_to4 h, string_of_to4 rfl]

/-- **A printed address is read back, up to its form.** -/
theorem canonical_parseIP_string (ip : IP) : (parseIP ip.string).canonical = ip.canonical := by
  cases h : ip.to4 with
  | some a => rw [string_of_to4 h, parseIP_string4, canonical_mapped, IP.canonical, h]
  | none =>
    cases ip with
    | nil => decide
    | v4 a => cases h
    | v6 a =>
      have hstring : (IP.v6 a).string = string6 a := by simp [IP.string, h]
      rw [hstring, parseIP_string6]

/-- Two addresses print the same exactly when their canonical forms agree. -/
theorem string_eq_string_iff {a b : IP} : a.string = b.string ↔ a.canonical = b.canonical := by
  constructor
  · intro h
    rw [← canonical_parseIP_string a, h, canonical_parseIP_string]
  · intro h
    rw [← string_canonical a, h, string_canonical]

end DnsFilter
