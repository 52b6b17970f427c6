import DnsFilter.Filter.Blacklist
import DnsFilter.Lib.Lines

/-!
# Downloading a list

`Downloader.FetchDomains` of `internal/filter/downloader.go`.  The body of a response is a
sequence of bytes; `io.LimitReader` cuts it at a byte, `bufio.Scanner` divides it at the
newline bytes, and `scanner.Text()` makes a string of each line, with the bytes it has, whether
they are UTF-8 or not.

* `parseLine_map`: on the text of a list the functions on bytes are those on runes;
* `fetch_complete_iff`: when a download without error has read every line of the body;
* `fetchDomains_encode`: below the limit, a text that is downloaded yields the domains that
  the same text yields as a file;
* `space_not_mem_of_fetchDomains`: no domain of a download contains a space.
-/

namespace DnsFilter

open GoString Lines

namespace GoString

/-! ### Bytes and runes -/

/-- `utf8.DecodeRune`: the first rune of a byte string and its width.  A byte that starts no
rune counts as U+FFFD. -/
def decodeRune (bytes : List UInt8) : Char × ℕ :=
  match (bytes.take 4).toByteArray.utf8DecodeChar? 0 with
  | some c => (c, c.utf8Size)
  | none => ('\uFFFD', 1)

/-- A rune of a byte string, with the bytes that it is read from. -/
structure Piece where
  rune : Char
  bytes : List UInt8
  deriving DecidableEq

/-- The pieces of `bytes` when `skip` bytes belong to the piece before. -/
def piecesAux : ℕ → List UInt8 → List Piece
  | _, [] => []
  | 0, b :: bytes =>
      let (c, width) := decodeRune (b :: bytes)
      ⟨c, (b :: bytes).take width⟩ :: piecesAux (width - 1) bytes
  | skip + 1, _ :: bytes => piecesAux skip bytes

/-- `for _, r := range s` over a byte string, forwards or backwards. -/
def pieces (bytes : List UInt8) : List Piece := piecesAux 0 bytes

/-- The runes of a byte string. -/
def runes (bytes : List UInt8) : GoString := (pieces bytes).map (·.rune)

/-- The UTF-8 form. -/
def encode (s : GoString) : List UInt8 := s.flatMap String.utf8EncodeChar

theorem decodeRune_append (c : Char) (bytes : List UInt8) :
    decodeRune (String.utf8EncodeChar c ++ bytes) = (c, c.utf8Size) := by
  have htake : (String.utf8EncodeChar c ++ bytes).take 4 =
      String.utf8EncodeChar c ++ bytes.take (4 - c.utf8Size) := by
    rw [List.take_append, List.take_of_length_le (by simpa using c.utf8Size_le_four),
      String.length_utf8EncodeChar]
  rw [decodeRune, htake, List.toByteArray_append, ByteArray.utf8DecodeChar?_utf8EncodeChar_append]

/-- A decoded rune stands at the front of the bytes. -/
theorem exists_of_utf8DecodeChar {b : UInt8} {bytes : List UInt8} {c : Char}
    (h : ((b :: bytes).take 4).toByteArray.utf8DecodeChar? 0 = some c) :
    b :: bytes = String.utf8EncodeChar c ++ bytes.drop (c.utf8Size - 1) := by
  obtain ⟨l, hl⟩ := ByteArray.exists_of_utf8DecodeChar?_eq_some h
  have htake : (b :: bytes).take 4 = String.utf8EncodeChar c ++ l.data.toList := by
    simpa using congrArg (fun a => a.data.toList) hl
  have hsplit : b :: bytes =
      String.utf8EncodeChar c ++ (l.data.toList ++ (b :: bytes).drop 4) := by
    rw [← List.append_assoc, ← htake, List.take_append_drop]
  obtain ⟨b', x, hx⟩ := List.exists_cons_of_ne_nil (@String.utf8EncodeChar_ne_nil c)
  have hlen : c.utf8Size - 1 = x.length := by
    rw [← String.length_utf8EncodeChar, hx]
    rfl
  rw [hx, List.cons_append] at hsplit ⊢
  obtain ⟨rfl, hbytes⟩ := List.cons.inj hsplit
  rw [hlen, hbytes, List.drop_left]

theorem piecesAux_append (x bytes : List UInt8) :
    piecesAux x.length (x ++ bytes) = pieces bytes := by
  induction x with
  | nil => rfl
  | cons b x ih => exact ih

/-- A rune in UTF-8. -/
def Piece.ofChar (c : Char) : Piece := ⟨c, String.utf8EncodeChar c⟩

theorem pieces_append (c : Char) (bytes : List UInt8) :
    pieces (String.utf8EncodeChar c ++ bytes) = .ofChar c :: pieces bytes := by
  obtain ⟨b, x, hx⟩ := List.exists_cons_of_ne_nil (@String.utf8EncodeChar_ne_nil c)
  have hdecode := decodeRune_append c bytes
  have hwidth : c.utf8Size = x.length + 1 := by rw [← String.length_utf8EncodeChar, hx]; rfl
  rw [hx, List.cons_append] at hdecode ⊢
  rw [pieces, piecesAux, hdecode]
  dsimp only
  rw [hwidth, Nat.add_sub_cancel, piecesAux_append, List.take_succ_cons, List.take_left,
    Piece.ofChar, hx]

@[simp] theorem pieces_encode (s : GoString) : pieces (encode s) = s.map .ofChar := by
  induction s with
  | nil => rfl
  | cons c s ih => rw [encode, List.flatMap_cons, pieces_append, ← encode, ih, List.map_cons]

@[simp] theorem runes_encode (s : GoString) : runes (encode s) = s := by
  rw [runes, pieces_encode, List.map_map]
  exact List.map_id s

theorem length_encode (s : GoString) : (encode s).length = s.byteLen := by
  simp [encode, byteLen, List.length_flatMap]

theorem encode_append (s t : GoString) : encode (s ++ t) = encode s ++ encode t :=
  List.flatMap_append

/-- An ASCII byte occurs in the encoding of its own rune only. -/
theorem ascii_mem_utf8EncodeChar {b : UInt8} {c : Char} (hb : b.toNat < 128)
    (h : b ∈ String.utf8EncodeChar c) : c.toNat = b.toNat := by
  have hval : c.toNat = c.val.toNat := rfl
  rw [String.utf8EncodeChar] at h
  split_ifs at h with h1 h2 h3 <;>
    simp only [List.mem_cons, List.not_mem_nil, or_false, ← UInt8.toNat_inj,
      UInt8.toNat_ofNat'] at h
  · omega
  -- every byte of a longer encoding has its highest bit set
  · rcases h with h | h <;> omega
  · rcases h with h | h | h <;> omega
  · rcases h with h | h | h | h <;> omega

theorem newline_mem_encode {c : Char} (h : c ≠ '\n') : (10 : UInt8) ∉ String.utf8EncodeChar c := by
  intro hmem
  apply h
  rw [← Char.toNat_inj]
  exact ascii_mem_utf8EncodeChar (by decide) hmem

/-- The lines of the bytes are the bytes of the lines. -/
theorem lines_encode (s : GoString) : lines 10 (encode s) = (rawLines s).map encode :=
  lines_flatMap (by decide) (fun _ => newline_mem_encode)
    (fun _ => String.utf8EncodeChar_ne_nil) s

/-- `bufio.ScanLines` drops one trailing carriage return. -/
def dropCRByte (l : List UInt8) : List UInt8 := if l.getLast? = some 13 then l.dropLast else l

theorem getLast?_encode_eq_cr {s : GoString} :
    (encode s).getLast? = some 13 ↔ s.getLast? = some '\r' := by
  rcases List.eq_nil_or_concat s with rfl | ⟨t, c, rfl⟩
  · simp [encode]
  · have hlast : (encode (t ++ [c])).getLast? = (String.utf8EncodeChar c).getLast? := by
      rw [encode_append, List.getLast?_append_of_ne_nil] <;>
        simp [encode, String.utf8EncodeChar_ne_nil]
    rw [List.concat_eq_append, hlast, List.getLast?_concat, Option.some_inj]
    constructor
    · intro h
      have hmem : (13 : UInt8) ∈ String.utf8EncodeChar c := List.mem_of_getLast? h
      rw [← Char.toNat_inj]
      exact ascii_mem_utf8EncodeChar (by decide) hmem
    · rintro rfl
      decide

theorem dropCRByte_encode (s : GoString) : dropCRByte (encode s) = encode (dropCR s) := by
  unfold dropCRByte dropCR
  by_cases h : s.getLast? = some '\r'
  · obtain ⟨t, rfl⟩ := List.getLast?_eq_some_iff.1 h
    have hcr : encode ['\r'] = [13] := by decide
    rw [if_pos (getLast?_encode_eq_cr.2 h), if_pos h, encode_append, hcr, List.dropLast_concat,
      List.dropLast_concat]
  · rw [if_neg (mt getLast?_encode_eq_cr.1 h), if_neg h]

/-! ### Lines of bytes -/

namespace Piece

/-- The bytes of a string. -/
def text (s : List Piece) : List UInt8 := s.flatMap (·.bytes)

def isSpace (p : Piece) : Bool := GoString.isSpace p.rune

/-- `strings.TrimSpace`. -/
def trimSpace (s : List Piece) : List Piece :=
  ((s.dropWhile isSpace).reverse.dropWhile isSpace).reverse

/-- `strings.Fields`. -/
def fields (s : List Piece) : List (List Piece) := (s.splitOnP isSpace).filter (· ≠ [])

/-- `s[:strings.Index(s, c)]`, or all of `s` when `c` does not occur. -/
def before (s : List Piece) (c : Char) : List Piece := s.takeWhile (·.rune ≠ c)

/-- A string of ASCII characters. -/
def is (s : List Piece) (t : GoString) : Prop := s.map (·.rune) = t

instance (s : List Piece) (t : GoString) : Decidable (is s t) := inferInstanceAs (Decidable (_ = _))

/-- `parseLine` on a line of a download. -/
def parseLine (line : List Piece) : List Piece :=
  let line := if '#' ∈ line.map (·.rune) then trimSpace (before line '#') else line
  if line = [] then []
  else
    match fields line with
    | [domain] => domain
    | pre :: domain :: _ =>
        if is pre "127.0.0.1".toList ∨ is pre "0.0.0.0".toList ∨ is pre "::1".toList then domain
        else []
    | [] => []

/-- The runes of a text in UTF-8. -/
@[simp] theorem map_rune_ofChar (s : GoString) : (s.map ofChar).map (·.rune) = s := by
  rw [List.map_map]
  exact List.map_id s

theorem text_map_ofChar (s : GoString) : text (s.map ofChar) = encode s := List.flatMap_map ..

theorem map_eq_nil (s : GoString) : s.map ofChar = [] ↔ s = [] := List.map_eq_nil_iff

theorem dropWhile_map (s : GoString) :
    (s.map ofChar).dropWhile isSpace = (s.dropWhile GoString.isSpace).map ofChar :=
  List.dropWhile_map ..

theorem trimSpace_map (s : GoString) :
    trimSpace (s.map ofChar) = (GoString.trimSpace s).map ofChar := by
  rw [trimSpace, dropWhile_map, ← List.map_reverse, dropWhile_map, ← List.map_reverse,
    GoString.trimSpace]

theorem before_map (s : GoString) (c : Char) :
    before (s.map ofChar) c = (GoString.before s c).map ofChar := List.takeWhile_map ..

theorem splitOnP_map (s : GoString) :
    (s.map ofChar).splitOnP isSpace = (s.splitOnP GoString.isSpace).map (·.map ofChar) := by
  induction s with
  | nil => rfl
  | cons c s ih =>
    obtain ⟨l, ls, h⟩ := List.exists_cons_of_ne_nil (List.splitOnP_ne_nil GoString.isSpace s)
    have hspace : isSpace (ofChar c) = GoString.isSpace c := rfl
    rw [List.map_cons, List.splitOnP_cons_eq_if_modifyHead, List.splitOnP_cons_eq_if_modifyHead,
      hspace, ih, h]
    split_ifs <;> rfl

theorem fields_map (s : GoString) :
    fields (s.map ofChar) = (GoString.fields s).map (·.map ofChar) := by
  rw [fields, splitOnP_map, List.filter_map, GoString.fields]
  refine congrArg (List.map _) (List.filter_congr fun l _ => ?_)
  simp

/-- On a text in UTF-8 the bytes that are cut out are those of the runes. -/
theorem parseLine_map (line : GoString) :
    parseLine (line.map ofChar) = (DnsFilter.parseLine line).map ofChar := by
  have hcut : (if '#' ∈ (line.map ofChar).map (·.rune) then
        trimSpace (before (line.map ofChar) '#') else line.map ofChar) =
      (if '#' ∈ line then GoString.trimSpace (GoString.before line '#') else line).map ofChar := by
    rw [map_rune_ofChar, before_map, trimSpace_map]
    split_ifs <;> rfl
  rw [parseLine, hcut, DnsFilter.parseLine]
  generalize (if '#' ∈ line then GoString.trimSpace (GoString.before line '#') else line) = cut
  by_cases hnil : cut = []
  · subst hnil
    rfl
  · rw [if_neg (mt (map_eq_nil cut).1 hnil), if_neg hnil, fields_map]
    rcases GoString.fields cut with _ | ⟨pre, _ | ⟨domain, rest⟩⟩
    · rfl
    · rfl
    · simp only [List.map_cons, is, map_rune_ofChar, apply_ite (List.map ofChar), List.map_nil]

end Piece

end GoString

/-! ### The download -/

/-- What a server sends; `failsAt` is the number of bytes after which the transfer breaks. -/
structure Response where
  statusCode : ℕ
  body : List UInt8
  failsAt : Option ℕ

/-- What becomes of a request. -/
inductive Download
  /-- `http.NewRequestWithContext` fails. -/
  | badRequest
  /-- `d.client.Do` fails. -/
  | failed
  | response (resp : Response)

/-- The errors of `FetchDomains`. -/
inductive FetchError
  | createRequest
  | fetch
  | status (statusCode : ℕ)
  | readBody
  deriving DecidableEq

/-- The limit of 50 MB. -/
def bodyLimit : ℕ := 50 * 1024 * 1024

/-- `io.LimitReader`: the first `n` bytes and then the end of the input, unless the transfer
breaks before. -/
def limitReader (resp : Response) (n : ℕ) : List UInt8 × Bool :=
  match resp.failsAt with
  | some k => if k < n then (resp.body.take k, true) else (resp.body.take n, false)
  | none => (resp.body.take n, false)

/-- A line, without the newline, fits into the buffer of the scanner. -/
def fits (l : List UInt8) : Bool := l.length < maxScanTokenSize

/-- The tokens of a `bufio.Scanner`, and whether its `Err` is set. -/
def scanBytes (input : List UInt8 × Bool) : List (List UInt8) × Bool :=
  let ls := lines 10 input.1
  ((ls.takeWhile fits).map dropCRByte, !ls.all fits || input.2)

/-- The body of the scanning loop: the domain that a line adds to the list. -/
def tokenDomain (token : List UInt8) : Option (List UInt8) :=
  let line := Piece.trimSpace (pieces token)
  if line = [] ∨ hasPrefix (line.map (·.rune)) "#".toList then none
  else
    let domain := Piece.parseLine line
    if domain = [] then none else some (Piece.text domain)

/-- The domains, as strings of bytes, and the error. -/
def fetchDomains : Download → List (List UInt8) × Option FetchError
  | .badRequest => ([], some .createRequest)
  | .failed => ([], some .fetch)
  | .response resp =>
      if resp.statusCode ≠ 200 then ([], some (.status resp.statusCode))
      else
        let (tokens, err) := scanBytes (limitReader resp bodyLimit)
        (tokens.filterMap tokenDomain, if err then some .readBody else none)

/-- The domain that a line of a file adds to the list. -/
def lineDomain (text : GoString) : Option GoString :=
  let line := trimSpace text
  if line = [] ∨ hasPrefix line "#".toList then none
  else
    let domain := parseLine line
    if domain = [] then none else some domain

/-- The scanning loop of `LoadFromFile`. -/
theorem scanDomains_eq (text : GoString) :
    scanDomains text = ((scanLines text).1.filterMap lineDomain, (scanLines text).2) := rfl

/-- The two loops find the same domains. -/
theorem tokenDomain_encode (text : GoString) :
    tokenDomain (encode text) = (lineDomain text).map encode := by
  rw [tokenDomain, pieces_encode, Piece.trimSpace_map, lineDomain]
  simp only [Piece.map_eq_nil, Piece.map_rune_ofChar, Piece.parseLine_map, Piece.text_map_ofChar]
  split_ifs <;> rfl

theorem scanBytes_encode (text : GoString) :
    scanBytes (encode text, false) = ((scanLines text).1.map encode, (scanLines text).2) := by
  have hfits : fits ∘ encode = fun l : GoString => decide (l.byteLen < maxScanTokenSize) := by
    funext l
    rw [Function.comp_apply, fits, length_encode]
  have hline : dropCRByte ∘ encode = encode ∘ dropCR := funext dropCRByte_encode
  rw [scanBytes, lines_encode, List.takeWhile_map, List.all_map, hfits, List.map_map, hline,
    ← List.map_map, Bool.or_false]
  rfl

/-- Below the limit a text yields the domains it yields as a file. -/
theorem fetchDomains_encode {text : GoString} (h : text.byteLen ≤ bodyLimit) :
    fetchDomains (.response ⟨200, encode text, none⟩) =
      ((scanDomains text).1.map encode,
        if (scanDomains text).2 then some .readBody else none) := by
  have hread : limitReader ⟨200, encode text, none⟩ bodyLimit = (encode text, false) := by
    rw [limitReader, List.take_of_length_le (by rwa [length_encode])]
  have htokens : ((scanLines text).1.map encode).filterMap tokenDomain =
      ((scanLines text).1.filterMap lineDomain).map encode := by
    rw [List.filterMap_map, List.map_filterMap]
    exact List.filterMap_congr fun l _ => tokenDomain_encode l
  rw [fetchDomains, if_neg (not_not.2 rfl), hread, scanBytes_encode, scanDomains_eq, ← htokens]

/-! ### Complete downloads -/

/-- The domain on a line of the body. -/
def byteLineDomain (l : List UInt8) : Option (List UInt8) := tokenDomain (dropCRByte l)

/-- The domains on all lines of a body. -/
def bodyDomains (body : List UInt8) : List (List UInt8) := (lines 10 body).filterMap byteLineDomain

/-- A response that is refused or breaks off before the limit, or that has a line too long for
the scanner in front of the limit. -/
def Response.Rejected (resp : Response) : Prop :=
  resp.statusCode ≠ 200 ∨ (∃ k ∈ resp.failsAt, k < bodyLimit) ∨
    ∃ l ∈ lines 10 (resp.body.take bodyLimit), maxScanTokenSize ≤ l.length

theorem scanBytes_ok {data : List UInt8} (h : ∀ l ∈ lines 10 data, fits l) :
    scanBytes (data, false) = ((lines 10 data).map dropCRByte, false) := by
  rw [scanBytes, List.takeWhile_eq_self_iff.2 h]
  simp [List.all_eq_true.2 h]

/-- Exactly the rejected responses are errors; of the others the first 50 MB are read. -/
theorem fetchDomains_response (resp : Response) :
    resp.Rejected ∧ (fetchDomains (.response resp)).2 ≠ none ∨
      ¬ resp.Rejected ∧
        fetchDomains (.response resp) = (bodyDomains (resp.body.take bodyLimit), none) := by
  by_cases hstatus : resp.statusCode = 200
  swap
  · exact .inl ⟨.inl hstatus, by simp [fetchDomains, hstatus]⟩
  by_cases hbreak : ∃ k ∈ resp.failsAt, k < bodyLimit
  · left
    refine ⟨.inr (.inl hbreak), ?_⟩
    obtain ⟨k, hk, hlt⟩ := hbreak
    have hread : limitReader resp bodyLimit = (resp.body.take k, true) := by
      rw [limitReader, Option.mem_def.1 hk]
      exact if_pos hlt
    simp [fetchDomains, hstatus, hread, scanBytes]
  · have hread : limitReader resp bodyLimit = (resp.body.take bodyLimit, false) := by
      rw [limitReader]
      cases hk : resp.failsAt with
      | none => rfl
      | some k => exact if_neg fun hlt => hbreak ⟨k, hk, hlt⟩
    by_cases hlong : ∃ l ∈ lines 10 (resp.body.take bodyLimit), maxScanTokenSize ≤ l.length
    · left
      refine ⟨.inr (.inr hlong), ?_⟩
      have hall : (lines 10 (resp.body.take bodyLimit)).all fits = false := by
        rw [List.all_eq_false]
        obtain ⟨l, hl, hlen⟩ := hlong
        exact ⟨l, hl, by simpa [fits] using hlen⟩
      simp [fetchDomains, hstatus, hread, scanBytes, hall]
    · right
      constructor
      · rintro (h | h | h)
        exacts [h hstatus, hbreak h, hlong h]
      · have hfits : ∀ l ∈ lines 10 (resp.body.take bodyLimit), fits l := by
          intro l hl
          simpa [fits] using fun hlen => hlong ⟨l, hl, hlen⟩
        rw [fetchDomains, if_neg (not_not.2 hstatus), hread, scanBytes_ok hfits]
        dsimp only
        rw [List.filterMap_map, if_neg Bool.false_ne_true]
        rfl

/-- A download without error has read the whole body exactly when the part of the cut line in
front of the limit yields what the cut line and the lines behind it yield. -/
theorem fetch_complete_iff (resp : Response) :
    (∀ ds, fetchDomains (.response resp) = (ds, none) → ds = bodyDomains resp.body) ↔
      resp.Rejected ∨ resp.body.length ≤ bodyLimit ∨
        bodyDomains (fragment 10 (resp.body.take bodyLimit)) =
          bodyDomains (fragment 10 (resp.body.take bodyLimit) ++ resp.body.drop bodyLimit) := by
  have hcut := filterMap_lines_take_iff 10 byteLineDomain (resp.body.take bodyLimit)
    (resp.body.drop bodyLimit)
  rw [List.take_append_drop] at hcut
  rcases fetchDomains_response resp with ⟨hrej, herr⟩ | ⟨hrej, hok⟩
  · refine ⟨fun _ => .inl hrej, fun _ ds hds => ?_⟩
    rw [hds] at herr
    exact absurd rfl herr
  · rw [hok, or_iff_right hrej]
    constructor
    · intro h
      exact .inr (hcut.1 (h _ rfl))
    · rintro (hlen | h) ds hds
      · rw [← (Prod.mk.inj hds).1, List.take_of_length_le hlen]
      · rw [← (Prod.mk.inj hds).1]
        exact hcut.2 h

theorem bodyDomains_replicate_append (n : ℕ) (u : List UInt8) :
    bodyDomains (List.replicate n 10 ++ u) = bodyDomains u := by
  have hempty : byteLineDomain [] = none := rfl
  rw [bodyDomains, lines_replicate_append, List.filterMap_append,
    List.filterMap_replicate_of_none hempty, List.nil_append]
  rfl

/-- Empty lines in front of a list move the place of the cut. -/
theorem fetchDomains_padded {n : ℕ} (hn : n ≤ bodyLimit) {u : List UInt8}
    (hu : ∀ l ∈ lines 10 (u.take (bodyLimit - n)), fits l) :
    fetchDomains (.response ⟨200, List.replicate n 10 ++ u, none⟩) =
      (bodyDomains (u.take (bodyLimit - n)), none) := by
  have htake : (List.replicate n (10 : UInt8) ++ u).take bodyLimit =
      List.replicate n 10 ++ u.take (bodyLimit - n) := by
    rw [List.take_append, List.length_replicate,
      List.take_of_length_le (by rwa [List.length_replicate])]
  have hfits : ∀ l ∈ lines 10 ((List.replicate n (10 : UInt8) ++ u).take bodyLimit), fits l := by
    intro l hl
    rw [htake, lines_replicate_append, List.mem_append] at hl
    rcases hl with hl | hl
    · rw [List.eq_of_mem_replicate hl]
      rfl
    · exact hu l hl
  rcases fetchDomains_response ⟨200, List.replicate n 10 ++ u, none⟩ with ⟨hrej, -⟩ | ⟨-, hok⟩
  · rcases hrej with h | ⟨k, hk, -⟩ | ⟨l, hl, hlen⟩
    · exact absurd rfl h
    · cases hk
    · exact absurd (hfits l hl) (by simpa [fits] using hlen)
  · rw [hok, htake, bodyDomains_replicate_append]

/-- A list of which the limit leaves two letters of the last name. -/
def longResponse : Response where
  statusCode := 200
  body := List.replicate (bodyLimit - 2) 10 ++ encode "ab.com\n".toList
  failsAt := none

theorem fetch_complete_fails :
    fetchDomains (.response longResponse) = ([encode "ab".toList], none) ∧
      bodyDomains longResponse.body = [encode "ab.com".toList] := by
  have hcut : (encode "ab.com\n".toList).take (bodyLimit - (bodyLimit - 2)) =
      encode "ab".toList := by decide
  have hab : lines 10 (encode "ab".toList) = [encode "ab".toList] := by decide
  have hcom : lines 10 (encode "ab.com\n".toList) = [encode "ab.com".toList] := by decide
  constructor
  · rw [longResponse, fetchDomains_padded (by decide) (by rw [hcut, hab]; decide), hcut,
      bodyDomains, hab]
    simp only [List.filterMap_cons, List.filterMap_nil, byteLineDomain, dropCRByte_encode,
      tokenDomain_encode]
    decide
  · rw [longResponse, bodyDomains_replicate_append, bodyDomains, hcom]
    simp only [List.filterMap_cons, List.filterMap_nil, byteLineDomain, dropCRByte_encode,
      tokenDomain_encode]
    decide

/-! ### Spaces -/

namespace GoString

/-- A piece is a rune in UTF-8 or a byte that starts none. -/
theorem eq_ofChar_of_mem {bytes : List UInt8} {skip : ℕ} {p : Piece}
    (h : p ∈ piecesAux skip bytes) :
    p = .ofChar p.rune ∨ p.rune = '\uFFFD' ∧ (32 : UInt8) ∉ p.bytes := by
  induction bytes generalizing skip with
  | nil => cases skip <;> exact absurd h List.not_mem_nil
  | cons b bytes ih =>
    cases skip with
    | succ skip => exact ih h
    | zero =>
      rw [piecesAux, decodeRune] at h
      cases hdecode : ((b :: bytes).take 4).toByteArray.utf8DecodeChar? 0 with
      | none =>
        rw [hdecode] at h
        rcases List.mem_cons.1 h with rfl | h
        · refine .inr ⟨rfl, fun hmem => ?_⟩
          obtain rfl : 32 = b := by simpa using hmem
          have hbad : decodeRune (32 :: bytes) = ('\uFFFD', 1) := by rw [decodeRune, hdecode]
          have hspace : decodeRune (32 :: bytes) = (' ', 1) := decodeRune_append ' ' bytes
          exact absurd (congrArg Prod.fst (hbad.symm.trans hspace)) (by decide)
        · exact ih h
      | some c =>
        rw [hdecode] at h
        rcases List.mem_cons.1 h with rfl | h
        · left
          rw [Piece.ofChar, exists_of_utf8DecodeChar hdecode,
            List.take_left' (String.length_utf8EncodeChar c)]
        · exact ih h

theorem space_mem_bytes {bytes : List UInt8} {p : Piece} (h : p ∈ pieces bytes)
    (hmem : (32 : UInt8) ∈ p.bytes) : p.isSpace = true := by
  rcases eq_ofChar_of_mem h with hp | ⟨-, hnone⟩
  · have hrune : p.rune = ' ' := by
      rw [← Char.toNat_inj]
      rw [hp] at hmem
      exact ascii_mem_utf8EncodeChar (by decide) hmem
    rw [Piece.isSpace, hrune]
    rfl
  · exact absurd hmem hnone

/-- No byte is lost between the pieces. -/
theorem text_piecesAux (skip : ℕ) (bytes : List UInt8) :
    Piece.text (piecesAux skip bytes) = bytes.drop skip := by
  induction bytes generalizing skip with
  | nil => cases skip <;> rfl
  | cons b bytes ih =>
    cases skip with
    | succ skip => exact ih skip
    | zero =>
      obtain ⟨c, width, hdecode⟩ : ∃ c width, decodeRune (b :: bytes) = (c, width + 1) := by
        rw [decodeRune]
        split
        · next c _ => exact ⟨c, c.utf8Size - 1, by rw [Nat.sub_add_cancel c.utf8Size_pos]⟩
        · exact ⟨_, 0, rfl⟩
      rw [piecesAux, hdecode]
      simp only [Piece.text, List.flatMap_cons, Nat.add_sub_cancel, List.drop_zero] at ih ⊢
      rw [ih, List.take_succ_cons, List.cons_append, List.take_append_drop]

theorem space_not_mem_runes {bytes : List UInt8} (h : (32 : UInt8) ∉ bytes) :
    ' ' ∉ runes bytes := by
  intro hmem
  obtain ⟨p, hp, hrune⟩ := List.mem_map.1 hmem
  apply h
  rw [← List.drop_zero (l := bytes), ← text_piecesAux 0 bytes, Piece.text, List.mem_flatMap]
  refine ⟨p, hp, ?_⟩
  rcases eq_ofChar_of_mem hp with hp | ⟨hnone, -⟩
  · rw [hp, hrune]
    decide
  · exact absurd (hnone.symm.trans hrune) (by decide)

namespace Piece

/-- The parts of a divided string hold no separator and nothing else than the string does. -/
theorem mem_of_mem_splitOnP {q : Piece → Bool} {s x : List Piece} (hx : x ∈ s.splitOnP q)
    {a : Piece} (ha : a ∈ x) : a ∈ s ∧ q a = false := by
  induction s generalizing x with
  | nil =>
    obtain rfl : x = [] := by simpa using hx
    exact absurd ha List.not_mem_nil
  | cons b s ih =>
    obtain ⟨l, ls, hs⟩ := List.exists_cons_of_ne_nil (List.splitOnP_ne_nil q s)
    rw [List.splitOnP_cons_eq_if_modifyHead] at hx
    split_ifs at hx with hb
    · rcases List.mem_cons.1 hx with rfl | hx
      · exact absurd ha List.not_mem_nil
      · exact (ih hx ha).imp_left (List.mem_cons_of_mem b)
    · rw [hs, List.modifyHead_cons] at hx
      rcases List.mem_cons.1 hx with rfl | hx
      · rcases List.mem_cons.1 ha with rfl | ha
        · exact ⟨List.mem_cons_self, by simpa using hb⟩
        · exact (ih (hs ▸ List.mem_cons_self) ha).imp_left (List.mem_cons_of_mem b)
      · exact (ih (hs ▸ List.mem_cons_of_mem l hx) ha).imp_left (List.mem_cons_of_mem b)

theorem mem_of_mem_trimSpace {s : List Piece} {a : Piece} (ha : a ∈ trimSpace s) : a ∈ s := by
  rw [trimSpace, List.mem_reverse] at ha
  have hrev := (List.dropWhile_sublist _).subset ha
  exact (List.dropWhile_sublist _).subset (List.mem_reverse.1 hrev)

/-- `parseLine` returns one of the fields. -/
theorem mem_of_mem_parseLine {line : List Piece} {a : Piece} (ha : a ∈ parseLine line) :
    a ∈ line ∧ a.isSpace = false := by
  have hfield : ∀ {s x : List Piece}, x ∈ fields s → a ∈ x → a ∈ s ∧ a.isSpace = false :=
    fun hx ha => mem_of_mem_splitOnP (List.mem_of_mem_filter hx) ha
  rw [parseLine] at ha
  generalize hs : (if '#' ∈ line.map (·.rune) then trimSpace (before line '#') else line) = s at ha
  have hline : a ∈ s → a ∈ line := by
    intro has
    rw [← hs] at has
    split_ifs at has
    · exact (List.takeWhile_sublist _).subset (mem_of_mem_trimSpace has)
    · exact has
  split_ifs at ha
  · exact absurd ha List.not_mem_nil
  · split at ha
    · next hone => exact (hfield (hone ▸ List.mem_cons_self) ha).imp_left hline
    · next hhosts =>
      split_ifs at ha
      · refine (hfield (hhosts ▸ ?_) ha).imp_left hline
        exact List.mem_cons_of_mem _ List.mem_cons_self
      · exact absurd ha List.not_mem_nil
    · exact absurd ha List.not_mem_nil

end Piece

end GoString

/-- A line yields a domain without spaces. -/
theorem space_not_mem_of_tokenDomain {token d : List UInt8} (h : tokenDomain token = some d) :
    (32 : UInt8) ∉ d := by
  simp only [tokenDomain] at h
  split_ifs at h
  cases h
  intro hmem
  obtain ⟨p, hp, hbyte⟩ := List.mem_flatMap.1 hmem
  obtain ⟨hline, hspace⟩ := Piece.mem_of_mem_parseLine hp
  have hyes := space_mem_bytes (Piece.mem_of_mem_trimSpace hline) hbyte
  exact absurd (hyes.symm.trans hspace) (by decide)

/-- The domains of a download contain no spaces. -/
theorem space_not_mem_of_fetchDomains {result : Download} {d : List UInt8}
    (h : d ∈ (fetchDomains result).1) : (32 : UInt8) ∉ d := by
  cases result with
  | badRequest => exact absurd h List.not_mem_nil
  | failed => exact absurd h List.not_mem_nil
  | response resp =>
    rw [fetchDomains] at h
    split_ifs at h
    · exact absurd h List.not_mem_nil
    · obtain ⟨token, -, htoken⟩ := List.mem_filterMap.1 h
      exact space_not_mem_of_tokenDomain htoken

end DnsFilter
