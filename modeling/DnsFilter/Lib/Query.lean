import DnsFilter.Lib.Lines
import DnsFilter.Lib.PercentCoding
import DnsFilter.Lib.Shrinking

/-!
# Query strings

The settings `key=value` of a query or a form, separated by `&`, with both parts escaped.  A
setting that contains `;` or a broken escape is dropped.

* `parse_encode`: the settings of an encoded form read back;
* `parse_escape`: escaping the rest of a query changes none of its settings;
* `shrinks_get`, `get_eq_self_iff`: what becomes of a text that is put into a query as it is.
-/

namespace Query

open Percent

abbrev Setting := List Char × List Char

/-- The text before the first separator, and the text after it. -/
def cut (sep : Char) (s : List Char) : List Char × List Char :=
  (s.takeWhile (· ≠ sep), (s.dropWhile (· ≠ sep)).drop 1)

def component (d : Decoder) (s : List Char) : Option (List Char) := (unescape s).map d.decode

def setting (d : Decoder) (s : List Char) : Option Setting :=
  if ';' ∈ s ∨ s = [] then none
  else do
    let key ← component d (cut '=' s).1
    let value ← component d (cut '=' s).2
    return (key, value)

/-- The settings of a query. -/
def parse (d : Decoder) (q : List Char) : List Setting := (q.splitOn '&').filterMap (setting d)

/-- The first value of a key, or the empty text. -/
def value (key : List Char) (settings : List Setting) : List Char :=
  ((settings.find? (·.1 = key)).map (·.2)).getD []

def get (d : Decoder) (q key : List Char) : List Char := value key (parse d q)

/-- A setting in the form encoding. -/
def encodeSetting (kv : Setting) : List Char := formEncode kv.1 ++ '=' :: formEncode kv.2

/-- The form encoding of settings. -/
def encode (settings : List Setting) : List Char :=
  List.intercalate ['&'] (settings.map encodeSetting)

variable {d : Decoder} {ds : Digits} {p : Char → Bool} {s t v front key : List Char} {c : Char}

/-! ### Settings -/

theorem cut_append (hs : '=' ∉ s) (t : List Char) : cut '=' (s ++ '=' :: t) = (s, t) := by
  rw [cut, Lines.takeWhile_append_sep hs, Lines.dropWhile_append_sep hs]
  rfl

theorem cut_of_not_mem (hs : '=' ∉ s) : cut '=' s = (s, []) := by
  have hall := Lines.ne_of_not_mem hs
  rw [cut, List.takeWhile_eq_self_iff.2 hall, List.dropWhile_eq_nil_iff.2 hall]
  rfl

theorem cut_snd_sublist (sep : Char) (s : List Char) : (cut sep s).2.Sublist s :=
  (List.drop_sublist _ _).trans (List.dropWhile_sublist _)

theorem component_of_plain (hpercent : '%' ∉ s) (hplus : '+' ∉ s) : component d s = some s := by
  rw [component, unescape_of_plain hpercent hplus, Option.map_some, d.decode_utf8]

theorem component_formEncode (s : List Char) : component d (formEncode s) = some s := by
  rw [component, unescape_formEncode, Option.map_some, d.decode_utf8]

theorem not_mem_formEncode (hc : unreserved c = false) (hplus : c ≠ '+') (hpercent : c ≠ '%')
    (s : List Char) : c ∉ formEncode s := by
  intro h
  rcases unreserved_of_mem_formEncode h with hres | hp | hp
  · rw [hc] at hres
    cases hres
  · exact hplus hp
  · exact hpercent hp

theorem setting_append (hkey : '=' ∉ key) (hsemi : ';' ∉ key) (s : List Char) :
    setting d (key ++ '=' :: s) =
      if ';' ∈ s then none
      else (component d key).bind fun k => (component d s).map fun v => (k, v) := by
  rw [setting, cut_append hkey]
  have hmem : ';' ∈ key ++ '=' :: s ∨ key ++ '=' :: s = [] ↔ ';' ∈ s := by simp [hsemi]
  simp only [hmem]
  split_ifs
  · rfl
  · cases component d key <;> cases component d s <;> rfl

theorem of_setting_eq_some {kv : Setting} (h : setting d s = some kv) :
    ';' ∉ s ∧ component d (cut '=' s).2 = some kv.2 := by
  rw [setting] at h
  split_ifs at h with hs
  simp only [Option.bind_eq_bind, Option.bind_eq_some_iff] at h
  obtain ⟨k, -, v, hv, hkv⟩ := h
  obtain rfl : (k, v) = kv := Option.some.inj hkv
  exact ⟨fun hsemi => hs (.inl hsemi), hv⟩

theorem setting_encodeSetting (kv : Setting) : setting d (encodeSetting kv) = some kv := by
  have hsep : ∀ s, '=' ∉ formEncode s ∧ ';' ∉ formEncode s := fun s =>
    ⟨not_mem_formEncode (by decide) (by decide) (by decide) s,
      not_mem_formEncode (by decide) (by decide) (by decide) s⟩
  rw [encodeSetting, setting_append (hsep kv.1).1 (hsep kv.1).2, if_neg (hsep kv.2).2,
    component_formEncode, component_formEncode]
  rfl

/-- The settings of an encoded form read back. -/
theorem parse_encode {settings : List Setting} (hne : settings ≠ []) :
    parse d (encode settings) = settings := by
  have hsep : ∀ part ∈ settings.map encodeSetting, '&' ∉ part := by
    intro part hpart
    obtain ⟨kv, -, rfl⟩ := List.mem_map.1 hpart
    have hamp : ∀ s, '&' ∉ formEncode s :=
      not_mem_formEncode (by decide) (by decide) (by decide)
    simp [encodeSetting, hamp]
  rw [parse, encode, List.splitOn_intercalate '&' hsep (by simpa using hne), List.filterMap_map]
  have hread : setting d ∘ encodeSetting = some := funext setting_encodeSetting
  rw [hread, List.filterMap_some]

/-! ### Escaped queries -/

/-- A coder that leaves the characters with a meaning in a query as they are. -/
structure Keeps (p : Char → Bool) : Prop extends Percent.Keeps p where
  amp : p '&' = false
  eq : p '=' = false
  semicolon : p ';' = false

/-- A kept character does not come out of another one. -/
theorem not_mem_escapeChar {a : Char} (hunhex : unhex a = none) (hpercent : a ≠ '%')
    (hc : c ≠ a) : a ∉ escapeChar ds p c := by
  intro h
  rcases of_mem_escapeChar h with ⟨-, heq⟩ | heq | hdigit
  · exact hc heq.symm
  · exact hpercent heq
  · exact hdigit hunhex

theorem mem_escape {a : Char} (ha : p a = false) (hunhex : unhex a = none) (hpercent : a ≠ '%') :
    a ∈ escape ds p s ↔ a ∈ s := by
  rw [escape, List.mem_flatMap]
  constructor
  · rintro ⟨c, hc, hmem⟩
    by_cases hca : c = a
    · rwa [← hca]
    · exact absurd hmem (not_mem_escapeChar hunhex hpercent hca)
  · intro h
    exact ⟨a, h, by rw [escapeChar_of_kept ha]; exact List.mem_singleton_self a⟩

theorem cut_escape (h : Keeps p) (s : List Char) :
    cut '=' (escape ds p s) = (escape ds p (cut '=' s).1, escape ds p (cut '=' s).2) := by
  by_cases hs : '=' ∈ s
  · obtain ⟨x, y, rfl, hx⟩ : ∃ x y, s = x ++ '=' :: y ∧ '=' ∉ x := by
      exact List.eq_append_cons_of_mem hs
    have hx' : '=' ∉ escape ds p x := mt (mem_escape h.eq (by decide) (by decide)).1 hx
    have hesc : escape ds p (x ++ '=' :: y) = escape ds p x ++ '=' :: escape ds p y := by
      simp [escape, escapeChar_of_kept h.eq]
    rw [hesc, cut_append hx', cut_append hx]
  · have hs' : '=' ∉ escape ds p s := mt (mem_escape h.eq (by decide) (by decide)).1 hs
    rw [cut_of_not_mem hs, cut_of_not_mem hs']
    rfl

theorem component_escape (h : Keeps p) (s : List Char) :
    component d (escape ds p s) = component d s := by
  rw [component, unescape_escape h.toKeeps, component]

theorem setting_escape (h : Keeps p) (s : List Char) :
    setting d (escape ds p s) = setting d s := by
  have hnil : escape ds p s = [] ↔ s = [] := by
    cases s <;> simp [escape, escapeChar_ne_nil]
  rw [setting, setting, cut_escape h]
  simp only [mem_escape h.semicolon (show unhex ';' = none by decide) (by decide), hnil,
    component_escape h]

/-- Escaping the rest of a query changes none of its settings. -/
theorem parse_escape (h : Keeps p) (q : List Char) : parse d (escape ds p q) = parse d q := by
  have hsplit : (escape ds p q).splitOn '&' = (q.splitOn '&').map (escape ds p) :=
    Lines.splitOn_flatMap (escapeChar_of_kept h.amp)
      (fun c hc => not_mem_escapeChar (by decide) (by decide) hc) q
  rw [parse, hsplit, List.filterMap_map, parse]
  exact congrArg (List.filterMap · _) (funext (setting_escape h))

/-! ### A text put into a query -/

/-- The characters of a value that mean themselves. -/
def Plain (v : List Char) : Prop := ∀ c ∈ v, c ∉ ['%', '+', '&', ';']

instance (v : List Char) : Decidable (Plain v) := List.decidableBAll (· ∉ ['%', '+', '&', ';']) v

/-- The beginning of a query up to the value of a key that is not set before. -/
structure Opens (d : Decoder) (front key : List Char) : Prop where
  split : ∃ s, front = s ++ '&' :: (key ++ ['=']) ∧ '&' ∉ s ∧ ∀ kv ∈ setting d s, kv.1 ≠ key
  plain : Plain key
  eq : '=' ∉ key

/-- A value comes from one of the settings, or is empty. -/
theorem value_eq (key : List Char) (settings : List Setting) :
    value key settings = [] ∨ ∃ kv ∈ settings, kv.2 = value key settings := by
  rw [value]
  cases h : settings.find? (·.1 = key) with
  | none => exact .inl rfl
  | some kv => exact .inr ⟨kv, List.mem_of_find?_eq_some h, rfl⟩

/-- The settings before the key do not matter. -/
theorem get_append (h : Opens d front key) {s : List Char} {rest : List (List Char)}
    (hv : v.splitOn '&' = s :: rest) :
    get d (front ++ v) key =
      value key (((key ++ '=' :: s) :: rest).filterMap (setting d)) := by
  obtain ⟨s', rfl, hamp, hother⟩ := h.split
  have hkey : '&' ∉ key ++ ['='] := by
    have hkey' : '&' ∉ key := fun hmem => h.plain _ hmem (by decide)
    simp [hkey']
  have hsplit : (s' ++ '&' :: (key ++ ['=']) ++ v).splitOn '&' =
      s' :: (key ++ '=' :: s) :: rest := by
    rw [List.append_assoc, List.cons_append, List.splitOn_append_cons_self_of_not_mem hamp,
      Lines.splitOn_append_of_not_mem hkey, hv]
    simp
  rw [get, parse, hsplit, List.filterMap_cons]
  cases hs' : setting d s' with
  | none => rfl
  | some kv =>
    have hne : ¬ (kv.1 = key) := hother kv hs'
    rw [value, List.find?_cons_of_neg (by simpa using hne), value]

/-- The value comes from a part of the text that no separator divides, or is empty. -/
theorem get_eq (h : Opens d front key) (v : List Char) :
    get d (front ++ v) key = [] ∨
      ∃ s, s.Sublist v ∧ '&' ∉ s ∧ ';' ∉ s ∧ component d s = some (get d (front ++ v) key) := by
  obtain ⟨s, rest, hv⟩ := List.exists_cons_of_ne_nil (List.splitOn_ne_nil '&' v)
  have hsub : ∀ t ∈ s :: rest, t.Sublist v ∧ '&' ∉ t := fun t ht =>
    Lines.sublist_of_mem_splitOn (hv ▸ ht)
  rw [get_append h hv]
  rcases value_eq key (((key ++ '=' :: s) :: rest).filterMap (setting d)) with hnil | ⟨kv, hkv, heq⟩
  · exact .inl hnil
  obtain ⟨t, ht, hset⟩ := List.mem_filterMap.1 hkv
  obtain ⟨hsemi, hcomp⟩ := of_setting_eq_some hset
  rw [← heq]
  right
  rcases List.mem_cons.1 ht with rfl | ht
  · rw [cut_append h.eq] at hcomp
    have hsemi' : ';' ∉ s := by
      simp only [List.mem_append, List.mem_cons, not_or] at hsemi
      exact hsemi.2.2
    obtain ⟨hsv, hamp⟩ := hsub s List.mem_cons_self
    exact ⟨s, hsv, hamp, hsemi', hcomp⟩
  · obtain ⟨htv, hamp⟩ := hsub t (List.mem_cons_of_mem s ht)
    have hcut := cut_snd_sublist '=' t
    exact ⟨_, hcut.trans htv, fun hmem => hamp (hcut.subset hmem),
      fun hmem => hsemi (hcut.subset hmem), hcomp⟩

theorem plain_iff : Plain v ↔ '%' ∉ v ∧ '+' ∉ v ∧ '&' ∉ v ∧ ';' ∉ v := by
  constructor
  · intro h
    refine ⟨?_, ?_, ?_, ?_⟩ <;> exact fun hmem => h _ hmem (by decide)
  · rintro ⟨hpercent, hplus, hamp, hsemi⟩ c hc hmem
    simp only [List.mem_cons, List.not_mem_nil, or_false] at hmem
    rcases hmem with rfl | rfl | rfl | rfl
    · exact hpercent hc
    · exact hplus hc
    · exact hamp hc
    · exact hsemi hc

theorem get_of_plain (h : Opens d front key) (hv : Plain v) : get d (front ++ v) key = v := by
  obtain ⟨hpercent, hplus, hamp, hsemi⟩ := plain_iff.1 hv
  obtain ⟨kpercent, kplus, -, ksemi⟩ := plain_iff.1 h.plain
  rw [get_append h (List.splitOn_eq_singleton hamp), List.filterMap_cons,
    setting_append h.eq ksemi, if_neg hsemi, component_of_plain kpercent kplus,
    component_of_plain hpercent hplus]
  simp [value]

theorem cost_get_lt (h : Opens d front key) (hv : ¬ Plain v) :
    cost (get d (front ++ v) key) < cost v := by
  obtain ⟨c, hc, hspecial⟩ : ∃ c ∈ v, c ∈ ['%', '+', '&', ';'] := by
    simp only [Plain, not_forall, not_not] at hv
    obtain ⟨c, hc, hspecial⟩ := hv
    exact ⟨c, hc, hspecial⟩
  have hascii : c.toNat < 128 := by
    simp only [List.mem_cons, List.not_mem_nil, or_false] at hspecial
    rcases hspecial with rfl | rfl | rfl | rfl <;> decide
  rcases get_eq h v with hnil | ⟨s, hsv, hamp, hsemi, hcomp⟩
  · rw [hnil]
    exact cost_lt_of_sublist (List.nil_sublist v) hc List.not_mem_nil hascii
  obtain ⟨bs, hbs, hget⟩ := Option.map_eq_some_iff.1 hcomp
  rw [← hget]
  obtain ⟨hle, hlt⟩ := byteCost_unescape hbs
  by_cases hcs : c ∈ s
  · have hchanged : '%' ∈ s ∨ '+' ∈ s := by
      simp only [List.mem_cons, List.not_mem_nil, or_false] at hspecial
      rcases hspecial with rfl | rfl | rfl | rfl
      · exact .inl hcs
      · exact .inr hcs
      · exact absurd hcs hamp
      · exact absurd hcs hsemi
    calc cost (d.decode bs) ≤ (bs.map byteCost).sum := d.cost_decode_le bs
      _ < cost s := hlt hchanged
      _ ≤ cost v := cost_le_of_sublist hsv
  · calc cost (d.decode bs) ≤ (bs.map byteCost).sum := d.cost_decode_le bs
      _ ≤ cost s := hle
      _ < cost v := cost_lt_of_sublist hsv hc hcs hascii

theorem shrinks_get (h : Opens d front key) : Shrinks cost fun v => get d (front ++ v) key := by
  intro v
  by_cases hv : Plain v
  · exact .inl (get_of_plain h hv)
  · exact .inr (cost_get_lt h hv)

theorem get_eq_self_iff (h : Opens d front key) : get d (front ++ v) key = v ↔ Plain v := by
  refine ⟨fun heq => ?_, get_of_plain h⟩
  by_contra hv
  have hlt := cost_get_lt h hv
  rw [heq] at hlt
  exact absurd hlt (lt_irrefl _)

end Query
