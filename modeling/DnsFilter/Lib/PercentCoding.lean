import Mathlib.Tactic

/-!
# Percent coding

Texts as bytes, and the escapes `%XX` that stand for bytes in a URL.

* `unescape_escape`: escaping characters changes nothing for the reader of a text that already
  has escapes;
* `unescape_formEncode`: the form encoding of a text reads back;
* `byteCost_unescape`: the bytes cost no more than the text, and less if a character was replaced.
-/

namespace Percent

/-- The bytes of a text. -/
def utf8 (s : List Char) : List UInt8 := s.flatMap String.utf8EncodeChar

/-- The value of a hexadecimal digit. -/
def unhex (c : Char) : Option ℕ :=
  if '0' ≤ c ∧ c ≤ '9' then some (c.toNat - '0'.toNat)
  else if 'a' ≤ c ∧ c ≤ 'f' then some (c.toNat - 'a'.toNat + 10)
  else if 'A' ≤ c ∧ c ≤ 'F' then some (c.toNat - 'A'.toNat + 10)
  else none

/-- The hexadecimal digits of a coder. -/
structure Digits where
  char : ℕ → Char
  unhex_char : ∀ d < 16, unhex (char d) = some d

def lower : Digits := ⟨Nat.digitChar, by decide⟩

def upper : Digits := ⟨fun d => d.digitChar.toUpper, by decide⟩

/-- `%XX`. -/
def escapeByte (ds : Digits) (b : UInt8) : List Char :=
  ['%', ds.char (b.toNat / 16), ds.char (b.toNat % 16)]

def escapeChar (ds : Digits) (p : Char → Bool) (c : Char) : List Char :=
  if p c then (String.utf8EncodeChar c).flatMap (escapeByte ds) else [c]

/-- A text with the bytes of the chosen characters escaped. -/
def escape (ds : Digits) (p : Char → Bool) (s : List Char) : List Char :=
  s.flatMap (escapeChar ds p)

/-- The byte of an escape. -/
def byte (x y : Char) : Option UInt8 := do
  let hi ← unhex x
  let lo ← unhex y
  return UInt8.ofNat (hi * 16 + lo)

/-- The bytes that a query component stands for: `+` is a space, `%XX` a byte. -/
def unescape : List Char → Option (List UInt8)
  | [] => some []
  | '%' :: x :: y :: s => do
      let b ← byte x y
      let bs ← unescape s
      return b :: bs
  | '%' :: _ => none
  | c :: s => (unescape s).map (String.utf8EncodeChar (if c = '+' then ' ' else c) ++ ·)

variable {s : List Char} {bs : List UInt8} {c x y : Char} {ds : Digits} {p : Char → Bool}

@[simp] theorem utf8_cons : utf8 (c :: s) = String.utf8EncodeChar c ++ utf8 s := rfl

@[simp] theorem escape_nil : escape ds p [] = [] := rfl

theorem escape_cons : escape ds p (c :: s) = escapeChar ds p c ++ escape ds p s := rfl

theorem escape_singleton : escape ds p [c] = escapeChar ds p c := List.append_nil _

theorem escape_append (s t : List Char) :
    escape ds p (s ++ t) = escape ds p s ++ escape ds p t := List.flatMap_append

theorem toNat_lt_of_unhex (h : unhex c ≠ none) : c.toNat < 128 := by
  rw [unhex] at h
  split_ifs at h with h0 ha hA
  · exact (UInt32.le_iff_toNat_le.1 h0.2).trans_lt (by decide)
  · exact (UInt32.le_iff_toNat_le.1 ha.2).trans_lt (by decide)
  · exact (UInt32.le_iff_toNat_le.1 hA.2).trans_lt (by decide)
  · exact absurd rfl h

/-- What holds of the digits among the ASCII characters holds of all digits. -/
theorem forall_digit {P : Char → Prop}
    (h : ∀ n < 128, unhex (Char.ofNat n) ≠ none → P (Char.ofNat n)) (hc : unhex c ≠ none) :
    P c := by
  have hlt := toNat_lt_of_unhex hc
  rw [← Char.ofNat_toNat c] at hc ⊢
  exact h _ hlt hc

/-! ### Reading escapes -/

theorem unescape_percent (x y : Char) (s : List Char) :
    unescape ('%' :: x :: y :: s) =
      (byte x y).bind fun b => (unescape s).map (b :: ·) := by
  rw [unescape]
  cases byte x y <;> cases unescape s <;> rfl

theorem unescape_cons (h : c ≠ '%') (s : List Char) :
    unescape (c :: s) =
      (unescape s).map (String.utf8EncodeChar (if c = '+' then ' ' else c) ++ ·) := by
  rw [unescape]
  · simp [h]
  · simp [h]

theorem unescape_percent_of_left (hx : unhex x = none) (s : List Char) :
    unescape ('%' :: x :: s) = none := by
  cases s with
  | nil => rfl
  | cons y s => simp [unescape_percent, byte, hx]

theorem unescape_percent_of_right (hy : unhex y = none) (x : Char) (s : List Char) :
    unescape ('%' :: x :: y :: s) = none := by
  cases hx : unhex x <;> simp [unescape_percent, byte, hx, hy]

theorem unescape_escapeByte (ds : Digits) (b : UInt8) (s : List Char) :
    unescape (escapeByte ds b ++ s) = (unescape s).map (b :: ·) := by
  have hb : b.toNat < 256 := b.toNat_lt
  have hbyte : byte (ds.char (b.toNat / 16)) (ds.char (b.toNat % 16)) = some b := by
    rw [byte, ds.unhex_char _ (by omega), ds.unhex_char _ (by omega)]
    exact congrArg some (by rw [Nat.div_add_mod', UInt8.ofNat_toNat])
  rw [escapeByte, List.cons_append, List.cons_append, List.cons_append, List.nil_append,
    unescape_percent, hbyte, Option.bind_some]

theorem unescape_escapeBytes (ds : Digits) (bs : List UInt8) (s : List Char) :
    unescape (bs.flatMap (escapeByte ds) ++ s) = (unescape s).map (bs ++ ·) := by
  induction bs with
  | nil => simp
  | cons b bs ih =>
    rw [List.flatMap_cons, List.append_assoc, unescape_escapeByte, ih, Option.map_map]
    rfl

theorem escapeChar_of_kept (h : p c = false) : escapeChar ds p c = [c] := by
  rw [escapeChar, h]
  rfl

/-- A coder writes the character itself, `%` and digits. -/
theorem of_mem_escapeChar (h : x ∈ escapeChar ds p c) :
    p c = false ∧ x = c ∨ x = '%' ∨ unhex x ≠ none := by
  rw [escapeChar] at h
  split_ifs at h with hp
  · obtain ⟨b, -, hb⟩ := List.mem_flatMap.1 h
    have hlt : b.toNat < 256 := b.toNat_lt
    have hdigit : ∀ n < 16, unhex (ds.char n) ≠ none := by
      intro n hn
      rw [ds.unhex_char n hn]
      exact Option.some_ne_none n
    simp only [escapeByte, List.mem_cons, List.not_mem_nil, or_false] at hb
    rcases hb with rfl | rfl | rfl
    · exact .inr (.inl rfl)
    · exact .inr (.inr (hdigit _ (by omega)))
    · exact .inr (.inr (hdigit _ (by omega)))
  · exact .inl ⟨by simpa using hp, List.mem_singleton.1 h⟩

theorem escapeChar_ne_nil (ds : Digits) (p : Char → Bool) (c : Char) :
    escapeChar ds p c ≠ [] := by
  obtain ⟨b, bs, hb⟩ := List.exists_cons_of_ne_nil (String.utf8EncodeChar_ne_nil (c := c))
  rw [escapeChar, hb]
  split_ifs <;> simp [escapeByte]

/-- The characters that a coder must leave as they are. -/
structure Keeps (p : Char → Bool) : Prop where
  percent : p '%' = false
  plus : p '+' = false
  digit : ∀ c, unhex c ≠ none → p c = false

theorem unescape_escapeChar (h : Keeps p) (hc : c ≠ '%') (s : List Char) :
    unescape (escapeChar ds p c ++ s) =
      (unescape s).map (String.utf8EncodeChar (if c = '+' then ' ' else c) ++ ·) := by
  rw [escapeChar]
  split_ifs with hp hplus hplus
  · rw [hplus, h.plus] at hp
    exact absurd hp (by simp)
  · exact unescape_escapeBytes ds _ s
  · rw [List.singleton_append, unescape_cons hc, if_pos hplus]
  · rw [List.singleton_append, unescape_cons hc, if_neg hplus]

/-- A character that is no digit is still none when it is escaped. -/
theorem exists_escapeChar_of_unhex (ds : Digits) (p : Char → Bool) (hx : unhex x = none) :
    ∃ y t, escapeChar ds p x = y :: t ∧ unhex y = none := by
  rw [escapeChar]
  split_ifs
  · obtain ⟨b, bs, hb⟩ := List.exists_cons_of_ne_nil (String.utf8EncodeChar_ne_nil (c := x))
    rw [hb]
    exact ⟨'%', _, rfl, by decide⟩
  · exact ⟨x, [], rfl, hx⟩

theorem escapeChar_of_digit (h : Keeps p) (hx : unhex x ≠ none) : escapeChar ds p x = [x] := by
  rw [escapeChar, h.digit x hx]
  rfl

/-- Escaping more characters does not change what a text stands for. -/
theorem unescape_escape (h : Keeps p) (s : List Char) :
    unescape (escape ds p s) = unescape s := by
  have hpercent : escapeChar ds p '%' = ['%'] := by rw [escapeChar, h.percent]; rfl
  rw [escape]
  induction s using unescape.induct with
  | case1 => rfl
  | case2 x y s ih =>
    rw [List.flatMap_cons, hpercent, List.flatMap_cons, List.singleton_append]
    by_cases hx : unhex x = none
    · obtain ⟨x', t, hesc, hx'⟩ := exists_escapeChar_of_unhex ds p hx
      rw [hesc, List.cons_append, unescape_percent_of_left hx', unescape_percent_of_left hx]
    rw [escapeChar_of_digit h hx, List.flatMap_cons, List.singleton_append]
    by_cases hy : unhex y = none
    · obtain ⟨y', t, hesc, hy'⟩ := exists_escapeChar_of_unhex ds p hy
      rw [hesc, List.cons_append, unescape_percent_of_right hy', unescape_percent_of_right hy]
    rw [escapeChar_of_digit h hy, List.singleton_append, unescape_percent, ih, unescape_percent]
  | case3 s hs =>
    -- fewer than two characters follow
    rw [List.flatMap_cons, hpercent, List.singleton_append]
    rcases s with _ | ⟨x, _ | ⟨y, s⟩⟩
    · rfl
    · rw [List.flatMap_singleton]
      by_cases hx : unhex x = none
      · obtain ⟨x', t, hesc, hx'⟩ := exists_escapeChar_of_unhex ds p hx
        rw [hesc, unescape_percent_of_left hx', unescape_percent_of_left hx]
      · rw [escapeChar_of_digit h hx]
    · exact absurd rfl (hs x y s)
  | case4 c s hs hc ih =>
    rw [List.flatMap_cons, unescape_escapeChar h hc, ih, unescape_cons hc]

/-! ### Forms -/

/-- The characters that the form encoding leaves as they are. -/
def unreserved (c : Char) : Bool := c.isAlphanum || c ∈ ['*', '-', '.', '_']

/-- The form encoding of a text. -/
def formEncode (s : List Char) : List Char :=
  s.flatMap fun c => if c = ' ' then ['+'] else escapeChar upper (!unreserved ·) c

theorem unescape_formEncode (s : List Char) : unescape (formEncode s) = some (utf8 s) := by
  rw [formEncode]
  induction s with
  | nil => rfl
  | cons c s ih =>
    rw [List.flatMap_cons, utf8_cons]
    split_ifs with hspace
    · rw [hspace, List.singleton_append, unescape_cons (by decide), if_pos rfl, ih, Option.map_some]
    rw [escapeChar]
    split_ifs with hres
    · rw [unescape_escapeBytes, ih, Option.map_some]
    · have hc : c ≠ '%' ∧ c ≠ '+' := by
        constructor <;> rintro rfl <;> exact hres (by decide)
      rw [List.singleton_append, unescape_cons hc.1, if_neg hc.2, ih, Option.map_some]

theorem unreserved_of_unhex (h : unhex c ≠ none) : unreserved c = true :=
  forall_digit (P := fun c => unreserved c = true) (by decide) h

/-- An encoded text has only unreserved characters, `+` and `%`. -/
theorem unreserved_of_mem_formEncode (h : c ∈ formEncode s) :
    unreserved c = true ∨ c = '+' ∨ c = '%' := by
  obtain ⟨a, -, hc⟩ := List.mem_flatMap.1 h
  split_ifs at hc with hspace
  · exact .inr (.inl (List.mem_singleton.1 hc))
  rcases of_mem_escapeChar hc with ⟨hres, rfl⟩ | hpercent | hdigit
  · exact .inl (by simpa using hres)
  · exact .inr (.inr hpercent)
  · exact .inl (unreserved_of_unhex hdigit)

/-! ### Reading only removes -/

/-- The cost of a character: one in ASCII, two where a reader may put a space in its place. -/
def charCost (c : Char) : ℕ :=
  if 128 ≤ c.toNat then 0 else if c ∈ ['+', '\n', '\r'] then 2 else 1

def cost (s : List Char) : ℕ := (s.map charCost).sum

def byteCost (b : UInt8) : ℕ := charCost (Char.ofNat b.toNat)

@[simp] theorem cost_nil : cost [] = 0 := rfl

@[simp] theorem cost_cons : cost (c :: s) = charCost c + cost s := by simp [cost]

theorem le_charCost (h : c.toNat < 128) : 1 ≤ charCost c := by
  rw [charCost, if_neg (by omega)]
  split_ifs <;> omega

theorem cost_le_of_sublist {t : List Char} (h : s.Sublist t) : cost s ≤ cost t :=
  (h.map charCost).sum_le_sum fun _ _ => Nat.zero_le _

/-- A text that lost an ASCII character is cheaper. -/
theorem cost_lt_of_sublist {t : List Char} (h : s.Sublist t) (hc : c ∈ t) (hcs : c ∉ s)
    (hascii : c.toNat < 128) : cost s < cost t := by
  induction h with
  | slnil => exact absurd hc List.not_mem_nil
  | cons a h ih =>
    rw [cost_cons]
    rcases List.mem_cons.1 hc with rfl | hc
    · have hpos := le_charCost hascii
      have hle := cost_le_of_sublist h
      omega
    · have hlt := ih hc hcs
      omega
  | cons_cons a h ih =>
    obtain ⟨hca, hcs'⟩ : c ≠ a ∧ c ∉ _ := by simpa using hcs
    have hlt := ih ((List.mem_cons.1 hc).resolve_left hca) hcs'
    rw [cost_cons, cost_cons]
    omega

theorem byteCost_of_le {b : UInt8} (h : 128 ≤ b.toNat) : byteCost b = 0 := by
  have hlt : b.toNat < 256 := b.toNat_lt
  have hvalid : b.toNat.isValidChar := .inl (by omega)
  have hnat : (Char.ofNat b.toNat).toNat = b.toNat := by
    rw [Char.ofNat, dif_pos hvalid]
    rfl
  rw [byteCost, charCost, hnat, if_pos h]

theorem byteCost_utf8EncodeChar (c : Char) :
    ((String.utf8EncodeChar c).map byteCost).sum = charCost c := by
  have hval : c.val.toNat = c.toNat := rfl
  rw [String.utf8EncodeChar]
  simp only [hval]
  split_ifs with h1 h2 h3
  · have hbyte : (UInt8.ofNat c.toNat).toNat = c.toNat := by
      rw [UInt8.toNat_ofNat']
      omega
    simp [byteCost, hbyte]
  all_goals
    -- the bytes of any other character are beyond ASCII
    have hc : charCost c = 0 := by rw [charCost, if_pos (by omega)]
    rw [hc, List.sum_eq_zero_iff]
    intro n hn
    obtain ⟨b, hb, rfl⟩ := List.mem_map.1 hn
    simp only [List.mem_cons, List.not_mem_nil, or_false] at hb
    apply byteCost_of_le
    rcases hb with rfl | rfl | rfl | rfl <;> rw [UInt8.toNat_ofNat'] <;> omega

/-- A reader of UTF-8: what it makes of other bytes costs nothing beyond them. -/
structure Decoder where
  decode : List UInt8 → List Char
  decode_utf8 : ∀ s, decode (utf8 s) = s
  cost_decode_le : ∀ bs, cost (decode bs) ≤ (bs.map byteCost).sum

theorem charCost_of_unhex (h : unhex c ≠ none) : charCost c = 1 :=
  forall_digit (P := fun c => charCost c = 1) (by decide) h

theorem byteCost_le (b : UInt8) : byteCost b ≤ 2 := by
  rw [byteCost, charCost]
  split_ifs <;> omega

/-- The bytes of a text cost no more than the text, and less if the reader replaces a character. -/
theorem byteCost_unescape (h : unescape s = some bs) :
    (bs.map byteCost).sum ≤ cost s ∧
      ('%' ∈ s ∨ '+' ∈ s → (bs.map byteCost).sum < cost s) := by
  induction s using unescape.induct generalizing bs with
  | case1 =>
    obtain rfl : [] = bs := Option.some.inj h
    simp
  | case2 x y s ih =>
    rw [unescape_percent, Option.bind_eq_some_iff] at h
    obtain ⟨b, hbyte, h⟩ := h
    obtain ⟨bs, hbs, rfl⟩ := Option.map_eq_some_iff.1 h
    have hx : unhex x ≠ none := by
      intro hx
      simp [byte, hx] at hbyte
    have hy : unhex y ≠ none := by
      intro hy
      cases hx : unhex x <;> simp [byte, hx, hy] at hbyte
    have hpercent : charCost '%' = 1 := by decide
    have hrest := (ih hbs).1
    have hb := byteCost_le b
    simp only [List.map_cons, List.sum_cons, cost_cons, hpercent, charCost_of_unhex hx,
      charCost_of_unhex hy]
    constructor
    · omega
    · intro _
      omega
  | case3 s hs =>
    rcases s with _ | ⟨x, _ | ⟨y, s⟩⟩
    · cases h
    · cases h
    · exact absurd rfl (hs x y s)
  | case4 c s hs hc ih =>
    rw [unescape_cons hc] at h
    obtain ⟨bs, hbs, rfl⟩ := Option.map_eq_some_iff.1 h
    obtain ⟨hle, hlt⟩ := ih hbs
    rw [List.map_append, List.sum_append, byteCost_utf8EncodeChar, cost_cons]
    by_cases hplus : c = '+'
    · subst hplus
      have hcost : charCost '+' = 2 ∧ charCost ' ' = 1 := by decide
      rw [if_pos rfl, hcost.1, hcost.2]
      constructor
      · omega
      · intro _
        omega
    · rw [if_neg hplus]
      refine ⟨by omega, fun hmem => ?_⟩
      have hmem' : '%' ∈ s ∨ '+' ∈ s := by
        simpa [Ne.symm hc, Ne.symm hplus] using hmem
      have hrest := hlt hmem'
      omega

/-- A text that the reader does not change. -/
theorem unescape_of_plain (hpercent : '%' ∉ s) (hplus : '+' ∉ s) : unescape s = some (utf8 s) := by
  induction s with
  | nil => rfl
  | cons c s ih =>
    obtain ⟨hc, hs⟩ : c ≠ '%' ∧ '%' ∉ s := by simpa [eq_comm] using hpercent
    obtain ⟨hc', hs'⟩ : c ≠ '+' ∧ '+' ∉ s := by simpa [eq_comm] using hplus
    rw [unescape_cons hc, if_neg hc', ih hs hs', Option.map_some, utf8_cons]

end Percent
