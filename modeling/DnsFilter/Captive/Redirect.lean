import DnsFilter.Captive.Group
import DnsFilter.Filter.Downloader
import DnsFilter.Lib.Cleaning
import DnsFilter.Lib.Html
import DnsFilter.Lib.Query

/-!
# The original URL across failed logins

`handleAuth` answers a failed login by a redirect to the login page and appends the form's
`redirect` field to the query of the `Location`; `handleLogin` puts the query's `redirect` into
the hidden field of the next form.  The field is escaped for HTML, but not for the query.

* `shownField_of_fails`: the field of the form after a failed login;
* `shrinks_carried`, `carried_eq_self_iff`: what a failure changes is lost for good;
* `headerValue_httpRedirect_iff`: the URLs that a redirect sends as they are;
* `survives_iff`: the URLs that come through.
-/

namespace DnsFilter

open GoString Percent

/-! ### Bytes and runes -/

theorem cost_piecesAux_le (skip : ℕ) (bytes : List UInt8) :
    cost ((piecesAux skip bytes).map (·.rune)) ≤ ((bytes.drop skip).map byteCost).sum := by
  induction bytes generalizing skip with
  | nil => cases skip <;> exact Nat.zero_le _
  | cons b bytes ih =>
    cases skip with
    | succ skip => exact ih skip
    | zero =>
      rw [piecesAux, decodeRune, List.drop_zero]
      cases h : ((b :: bytes).take 4).toByteArray.utf8DecodeChar? 0 with
      | none =>
        have hnew : charCost '\uFFFD' = 0 := by decide
        have hrest : cost ((piecesAux 0 bytes).map (·.rune)) ≤ (bytes.map byteCost).sum := ih 0
        simp only [List.map_cons, cost_cons, hnew, Nat.sub_self, List.map_cons, List.sum_cons]
        omega
      | some c =>
        rw [exists_of_utf8DecodeChar h, List.map_append, List.sum_append,
          byteCost_utf8EncodeChar]
        exact Nat.add_le_add_left (ih (c.utf8Size - 1)) (charCost c)

/-- A Go string of bytes, as its runes. -/
def goRunes : Decoder where
  decode := runes
  decode_utf8 := runes_encode
  cost_decode_le bytes := cost_piecesAux_le 0 bytes

/-! ### The server -/

/-- `hexEscapeNonASCII`. -/
def hexEscapeNonASCII (s : GoString) : GoString := escape lower (128 ≤ ·.toNat) s

/-- `headerNewlineToSpace`. -/
def headerNewlineToSpace (c : Char) : Char := if c = '\n' ∨ c = '\r' then ' ' else c

/-- `isASCIISpace` of `textproto`. -/
def isASCIISpace (c : Char) : Bool := c ∈ [' ', '\t', '\n', '\r']

/-- `textproto.TrimString`. -/
def trimString (s : GoString) : GoString := strip isASCIISpace s

/-- What is sent of the value of a header. -/
def headerValue (s : GoString) : GoString := trimString (s.map headerNewlineToSpace)

/-- The header `Location` of a redirect to a URL. -/
def location (url : GoString) : GoString := headerValue (hexEscapeNonASCII url)

/-- The places of the login page that depend on the request. -/
structure LoginPage where
  errorHTML : GoString
  redirectURL : GoString

/-- `handleLogin`, for the query of the request. -/
def handleLogin (query : GoString) : LoginPage :=
  let errMsg := Html.escape (Query.get goRunes query "error".toList)
  { errorHTML :=
      if errMsg = [] then [] else "<div class=\"error\">".toList ++ errMsg ++ "</div>".toList
    redirectURL := Html.escape (Query.get goRunes query "redirect".toList) }

/-- A request to `/auth` with a form in its body: `FormValue`. -/
def formRequest (remoteAddr body : GoString) : AuthRequest where
  remoteAddr := remoteAddr
  username := Query.get goRunes body "username".toList
  password := Query.get goRunes body "password".toList
  redirect := Query.get goRunes body "redirect".toList

/-! ### The browser -/

namespace Browser

/-- The characters that are escaped in the query of a URL. -/
def queryEscaped (c : Char) : Bool := c ≤ ' ' || c ∈ ['"', '#', '<', '>', '\''] || '~' < c

/-- The C0 controls and the space. -/
def isControl (c : Char) : Bool := c ≤ ' '

def isTabOrNewline (c : Char) : Bool := c ∈ ['\t', '\n', '\r']

def isFragment (c : Char) : Bool := c ∈ ['#']

/-- The query that is sent when a `Location` leads to the login page. -/
def follow (location : GoString) : Option GoString :=
  let url := (strip isControl location).filter (!isTabOrNewline ·)
  match url.takeWhile (!isFragment ·) with
  | '/' :: '?' :: query => some (escape upper queryEscaped query)
  | _ => none

/-- The value of the hidden field of the login page. -/
def hiddenField (page : LoginPage) : GoString :=
  Html.attributeValue (page.redirectURL ++ "\">".toList)

/-- The body that the login form submits. -/
def formBody (redirect username password : GoString) : GoString :=
  Query.encode [("redirect".toList, redirect), ("username".toList, username),
    ("password".toList, password)]

end Browser

/-- A submission of the login form: what the user types, and the server at that moment. -/
structure Submission where
  username : GoString
  password : GoString
  remoteAddr : GoString
  auth : Authenticator
  resolver : Resolver
  now : ℤ

namespace Submission

def request (s : Submission) (redirect : GoString) : AuthRequest :=
  formRequest s.remoteAddr (Browser.formBody redirect s.username s.password)

def response (s : Submission) (sessionTTL : ℤ) (redirect : GoString) : AuthResponse :=
  (handleAuth s.auth sessionTTL s.resolver s.now (s.request redirect)).2

def Fails (s : Submission) : Prop := s.auth s.username s.password = none

structure Succeeds (s : Submission) : Prop where
  authenticated : s.auth s.username s.password ≠ none
  peer : splitHostPort s.remoteAddr ≠ none

end Submission

/-- The field of the form that the browser shows after a response. -/
def shownField : AuthResponse → Option GoString
  | .redirect url =>
      (Browser.follow (location url)).map fun query => Browser.hiddenField (handleLogin query)
  | _ => none

/-- The field of the form after failed submissions. -/
def fieldAfter (sessionTTL : ℤ) (u : GoString) (failed : List Submission) : Option GoString :=
  failed.foldlM (fun field s => shownField (s.response sessionTTL field)) u

/-- The response redirects to `u`: but for the escapes of `hexEscapeNonASCII` it sends `u`
itself. -/
def RedirectsTo (response : AuthResponse) (u : GoString) : Prop :=
  ∃ url, response = .redirect url ∧ headerValue url = u

/-- The field is still `u` after the failed submissions, and the last one redirects to `u`. -/
def Survives (sessionTTL : ℤ) (u : GoString) (failed : List Submission) (last : Submission) :
    Prop :=
  ∃ field, fieldAfter sessionTTL u failed = some field ∧ (last.request field).redirect = u ∧
    RedirectsTo (last.response sessionTTL field) u

/-! ### The field after one failure -/

/-- The query of the login page up to the value of `redirect`. -/
def failureQuery : GoString := "error=Usuário ou senha inválidos&redirect=".toList

/-- What becomes of the end of a `Location`. -/
def cleaned (u : GoString) : GoString :=
  ((((u.map headerNewlineToSpace).rdropWhile isASCIISpace).rdropWhile Browser.isControl).filter
    (!Browser.isTabOrNewline ·)).takeWhile (!Browser.isFragment ·)

/-- The field of the form after a failed login. -/
def carried (u : GoString) : GoString :=
  (Query.get goRunes (failureQuery ++ cleaned u) "redirect".toList).map Html.replaceNull

theorem opens_failureQuery : Query.Opens goRunes failureQuery "redirect".toList := by
  have hplain : '%' ∉ "error".toList ∧ '+' ∉ "error".toList := by decide
  have hplain' : '%' ∉ "Usuário ou senha inválidos".toList ∧
      '+' ∉ "Usuário ou senha inválidos".toList := by decide
  have hset : Query.setting goRunes ("error".toList ++ '=' :: "Usuário ou senha inválidos".toList) =
      some ("error".toList, "Usuário ou senha inválidos".toList) := by
    rw [Query.setting_append (by decide) (by decide), if_neg (by decide),
      Query.component_of_plain hplain.1 hplain.2, Query.component_of_plain hplain'.1 hplain'.2]
    rfl
  have hsplit : failureQuery = "error".toList ++ '=' :: "Usuário ou senha inválidos".toList ++
      '&' :: ("redirect".toList ++ ['=']) := by decide +kernel
  refine ⟨⟨_, hsplit, by decide, ?_⟩, by decide, by decide⟩
  intro kv hkv
  rw [hset] at hkv
  obtain rfl := Option.some.inj hkv
  decide

theorem request_eq (s : Submission) (field : GoString) :
    s.request field =
      { remoteAddr := s.remoteAddr
        username := s.username
        password := s.password
        redirect := field } := by
  have hparse : Query.parse goRunes (Browser.formBody field s.username s.password) =
      [("redirect".toList, field), ("username".toList, s.username),
        ("password".toList, s.password)] :=
    Query.parse_encode (List.cons_ne_nil _ _)
  rw [Submission.request, formRequest, Query.get, Query.get, Query.get, hparse]
  rfl

theorem response_of_fails {s : Submission} (h : s.Fails) (sessionTTL : ℤ) (field : GoString) :
    s.response sessionTTL field =
      .redirect ('/' :: '?' :: (failureQuery ++ field)) := by
  have hauth : s.auth s.username s.password = none := h
  have hurl : "/?error=Usuário ou senha inválidos&redirect=".toList =
      '/' :: '?' :: failureQuery := by decide +kernel
  rw [Submission.response, request_eq, handleAuth, if_neg (not_not.2 rfl)]
  simp only [hauth, hurl, List.cons_append, httpRedirect_root]

/-- An ASCII character that no escape consists of. -/
def IsMark (c : Char) : Prop := c.toNat < 128 ∧ c ≠ '%' ∧ unhex c = none

instance (c : Char) : Decidable (IsMark c) := inferInstanceAs (Decidable (_ ∧ _))

/-- The coder of `hexEscapeNonASCII` does not touch marks. -/
theorem spares_of_isMark {q : Char → Bool} (hq : ∀ c, q c = true → IsMark c) :
    Spares (128 ≤ ·.toNat) q where
  kept c hc := by simpa using (hq c hc).1
  percent := by
    by_contra hpercent
    exact (hq '%' (by simpa using hpercent)).2.1 rfl
  digit c hc := by
    by_contra hdigit
    exact hc (hq c (by simpa using hdigit)).2.2

theorem isMark_of_mem {l : List Char} (hl : l.all (IsMark ·) = true) (c : Char)
    (hc : decide (c ∈ l) = true) : IsMark c :=
  of_decide_eq_true (List.all_eq_true.1 hl c (of_decide_eq_true hc))

theorem isMark_of_isASCIISpace : ∀ c, isASCIISpace c = true → IsMark c := isMark_of_mem rfl

theorem isMark_of_isControl (c : Char) (hc : Browser.isControl c = true) : IsMark c := by
  have hle : c.toNat ≤ 32 := UInt32.le_iff_toNat_le.1 (of_decide_eq_true hc)
  have hall : ∀ n ≤ 32, IsMark (Char.ofNat n) := by decide
  rw [← Char.ofNat_toNat c]
  exact hall _ hle

theorem isMark_of_isTabOrNewline : ∀ c, Browser.isTabOrNewline c = true → IsMark c :=
  isMark_of_mem rfl

theorem isMark_of_isFragment : ∀ c, Browser.isFragment c = true → IsMark c := isMark_of_mem rfl

theorem headerNewlineToSpace_of_not_newline {c : Char} (hc : Browser.isTabOrNewline c = false) :
    headerNewlineToSpace c = c := by
  have hne : c ≠ '\n' ∧ c ≠ '\r' := by
    constructor <;> rintro rfl <;> cases hc
  rw [headerNewlineToSpace, if_neg (by simp [hne])]

/-- It makes no difference whether a URL is escaped before or after it becomes a header value. -/
theorem location_eq (url : GoString) : location url = hexEscapeNonASCII (headerValue url) := by
  have hspace := spares_of_isMark isMark_of_isASCIISpace
  have htab := spares_of_isMark isMark_of_isTabOrNewline
  have hkept : ∀ c : Char, decide (128 ≤ c.toNat) = false →
      decide (128 ≤ (headerNewlineToSpace c).toNat) = false := by
    intro c hc
    rw [headerNewlineToSpace]
    split_ifs
    · rfl
    · exact hc
  rw [location, headerValue, trimString, hexEscapeNonASCII,
    escape_map htab (fun _ => headerNewlineToSpace_of_not_newline) hkept, escape_strip hspace]
  rfl

/-- A response that redirects to `u` sends it in ASCII. -/
theorem RedirectsTo.location_eq {response : AuthResponse} {u : GoString}
    (h : RedirectsTo response u) :
    ∃ url, response = .redirect url ∧ location url = hexEscapeNonASCII u := by
  obtain ⟨url, hresponse, rfl⟩ := h
  exact ⟨url, hresponse, DnsFilter.location_eq url⟩

/-- The header of a failed login. -/
theorem location_failure (u : GoString) :
    location ('/' :: '?' :: failureQuery ++ u) =
      hexEscapeNonASCII ('/' :: '?' :: failureQuery ++
        (u.map headerNewlineToSpace).rdropWhile isASCIISpace) := by
  have hfront : ('/' :: '?' :: failureQuery).map headerNewlineToSpace =
      '/' :: '?' :: failureQuery := rfl
  rw [location_eq, headerValue, trimString, List.map_append, hfront,
    strip_append (by decide) rfl rfl]

/-- The query that a failed login sends the browser to. -/
theorem follow_failure (u : GoString) :
    Browser.follow (location ('/' :: '?' :: failureQuery ++ u)) =
      some (escape upper Browser.queryEscaped (hexEscapeNonASCII (failureQuery ++ cleaned u))) := by
  have hcontrol := spares_of_isMark isMark_of_isControl
  have htab := spares_of_isMark isMark_of_isTabOrNewline
  have hfragment := spares_of_isMark isMark_of_isFragment
  have hfilter : ('/' :: '?' :: failureQuery).filter (!Browser.isTabOrNewline ·) =
      '/' :: '?' :: failureQuery := rfl
  have htake : ∀ t, ('/' :: '?' :: failureQuery ++ t).takeWhile (!Browser.isFragment ·) =
      '/' :: '?' :: failureQuery ++ t.takeWhile (!Browser.isFragment ·) := fun t =>
    List.takeWhile_append_of_pos (List.all_eq_true.1 rfl)
  rw [location_failure, Browser.follow, hexEscapeNonASCII, escape_strip hcontrol,
    strip_append (by decide) rfl rfl]
  simp only [escape_filter htab, escape_takeWhile hfragment, List.filter_append, hfilter, htake]
  rfl

theorem keeps_nonASCII : Query.Keeps (128 ≤ ·.toNat) where
  percent := rfl
  plus := rfl
  digit c hc := by simpa using toNat_lt_of_unhex hc
  amp := rfl
  eq := rfl
  semicolon := rfl

theorem keeps_queryEscaped : Query.Keeps Browser.queryEscaped where
  percent := rfl
  plus := rfl
  digit c hc := forall_digit (P := fun c => Browser.queryEscaped c = false) (by decide +kernel) hc
  amp := rfl
  eq := rfl
  semicolon := rfl

/-- The field of the form after a failed login. -/
theorem shownField_of_fails {s : Submission} (h : s.Fails) (sessionTTL : ℤ) (field : GoString) :
    shownField (s.response sessionTTL field) = some (carried field) := by
  rw [response_of_fails h, shownField, ← List.cons_append, ← List.cons_append, follow_failure,
    Option.map_some, Browser.hiddenField, handleLogin]
  dsimp only
  have hquote : "\">".toList = '"' :: ['>'] := rfl
  rw [hquote, Html.attributeValue_escape, Query.get, Query.parse_escape keeps_queryEscaped,
    hexEscapeNonASCII, Query.parse_escape keeps_nonASCII]
  rfl

theorem fieldAfter_of_fails (sessionTTL : ℤ) {failed : List Submission}
    (h : ∀ s ∈ failed, s.Fails) (u : GoString) :
    fieldAfter sessionTTL u failed = some (failed.foldl (fun field _ => carried field) u) := by
  rw [fieldAfter]
  induction failed generalizing u with
  | nil => rfl
  | cons s failed ih =>
    rw [List.foldlM_cons, shownField_of_fails (h s List.mem_cons_self)]
    exact ih (fun s' hs' => h s' (List.mem_cons_of_mem s hs')) (carried u)

/-! ### The URLs that come through -/

/-- A URL that means the same in a query, in a header and in a page. -/
structure Unchanged (u : GoString) : Prop where
  query : Query.Plain u
  url : ∀ c ∈ u, c ∉ ['#', '\t', '\n', '\r', '\x00']
  last : ∀ c ∈ u.getLast?, ' ' < c

theorem shrinks_newlineToSpace : Shrinks cost (List.map headerNewlineToSpace) := by
  apply shrinks_map
  intro c
  rw [headerNewlineToSpace]
  split_ifs with hc
  · right
    rcases hc with rfl | rfl <;> decide
  · exact .inl rfl

theorem shrinks_replaceNull : Shrinks cost (List.map Html.replaceNull) := by
  apply shrinks_map
  intro c
  rw [Html.replaceNull]
  split_ifs with hc
  · right
    rw [hc]
    decide
  · exact .inl rfl

theorem shrinks_trim {q : Char → Bool} (hq : ∀ c, q c = true → IsMark c) :
    Shrinks cost fun u => u.rdropWhile q :=
  shrinks_rdropWhile fun c hc => (hq c hc).1

theorem shrinks_removeTabs : Shrinks cost fun u => u.filter (!Browser.isTabOrNewline ·) :=
  shrinks_filter fun c hc => (isMark_of_isTabOrNewline c hc).1

theorem shrinks_cutFragment : Shrinks cost fun u => u.takeWhile (!Browser.isFragment ·) :=
  shrinks_takeWhile fun c hc => (isMark_of_isFragment c hc).1

theorem shrinks_cleaned : Shrinks cost cleaned :=
  (((shrinks_newlineToSpace.comp (shrinks_trim isMark_of_isASCIISpace)).comp
    (shrinks_trim isMark_of_isControl)).comp shrinks_removeTabs).comp shrinks_cutFragment

theorem shrinks_carried : Shrinks cost carried :=
  (shrinks_cleaned.comp (Query.shrinks_get opens_failureQuery)).comp shrinks_replaceNull

/-- A text is cleaned to itself if no step changes it. -/
theorem cleaned_eq_self_iff {u : GoString} :
    cleaned u = u ↔
      (((u.map headerNewlineToSpace = u ∧ u.rdropWhile isASCIISpace = u) ∧
        u.rdropWhile Browser.isControl = u) ∧ u.filter (!Browser.isTabOrNewline ·) = u) ∧
        u.takeWhile (!Browser.isFragment ·) = u := by
  have hspace := shrinks_trim isMark_of_isASCIISpace
  have hcontrol := shrinks_trim isMark_of_isControl
  have h2 := shrinks_newlineToSpace.comp hspace
  have h3 := h2.comp hcontrol
  have h4 := h3.comp shrinks_removeTabs
  exact (h4.comp_eq_self_iff shrinks_cutFragment).trans (and_congr_left'
    ((h3.comp_eq_self_iff shrinks_removeTabs).trans (and_congr_left'
      ((h2.comp_eq_self_iff hcontrol).trans (and_congr_left'
        (shrinks_newlineToSpace.comp_eq_self_iff hspace))))))

theorem unchanged_of_cleaned {u : GoString} (hclean : cleaned u = u) (hplain : Query.Plain u)
    (hnull : u.map Html.replaceNull = u) : Unchanged u := by
  obtain ⟨⟨⟨-, hcontrol⟩, htab⟩, hfragment⟩ := cleaned_eq_self_iff.1 hclean
  have htab' := List.filter_eq_self.1 htab
  have hfragment' := List.takeWhile_eq_self_iff.1 hfragment
  have hnull' := List.map_inj_left.1 (hnull.trans (List.map_id u).symm)
  refine ⟨hplain, ?_, ?_⟩
  · intro c hc hmem
    simp only [List.mem_cons, List.not_mem_nil, or_false] at hmem
    rcases hmem with rfl | rfl | rfl | rfl | rfl
    · exact absurd (hfragment' _ hc) (by decide)
    · exact absurd (htab' _ hc) (by decide)
    · exact absurd (htab' _ hc) (by decide)
    · exact absurd (htab' _ hc) (by decide)
    · exact absurd (hnull' _ hc) (by decide)
  · intro c hc
    obtain ⟨hne, rfl⟩ := List.mem_getLast?_eq_getLast hc
    exact not_le.1 fun hle => List.rdropWhile_eq_self_iff.1 hcontrol hne (decide_eq_true hle)

theorem isControl_of_isASCIISpace {c : Char} (hc : isASCIISpace c = true) :
    Browser.isControl c = true := by
  have hmem : c ∈ [' ', '\t', '\n', '\r'] := of_decide_eq_true hc
  simp only [List.mem_cons, List.not_mem_nil, or_false] at hmem
  rcases hmem with rfl | rfl | rfl | rfl <;> rfl

theorem cleaned_of_unchanged {u : GoString} (h : Unchanged u) : cleaned u = u := by
  have htab : ∀ c ∈ u, Browser.isTabOrNewline c = false := by
    intro c hc
    have hurl := h.url c hc
    simp only [List.mem_cons, not_or] at hurl
    simp [Browser.isTabOrNewline, hurl]
  have hcontrol : ∀ hne : u ≠ [], ¬ Browser.isControl (u.getLast hne) = true := fun hne hc =>
    absurd (of_decide_eq_true hc) (not_le.2 (h.last _ (List.getLast?_eq_some_getLast hne)))
  rw [cleaned_eq_self_iff]
  refine ⟨⟨⟨⟨?_, ?_⟩, ?_⟩, ?_⟩, ?_⟩
  · rw [List.map_congr_left fun c hc => headerNewlineToSpace_of_not_newline (htab c hc),
      List.map_id']
  · exact List.rdropWhile_eq_self_iff.2 fun hne hc => hcontrol hne (isControl_of_isASCIISpace hc)
  · exact List.rdropWhile_eq_self_iff.2 hcontrol
  · rw [List.filter_eq_self]
    intro c hc
    rw [htab c hc]
    rfl
  · rw [List.takeWhile_eq_self_iff]
    intro c hc
    have hurl := h.url c hc
    simp only [List.mem_cons, not_or] at hurl
    simp [Browser.isFragment, hurl]

theorem carried_eq_self_iff {u : GoString} : carried u = u ↔ Unchanged u := by
  have hget := Query.shrinks_get opens_failureQuery
  have hsteps : carried u = u ↔ (cleaned u = u ∧ Query.Plain u) ∧ u.map Html.replaceNull = u :=
    ((shrinks_cleaned.comp hget).comp_eq_self_iff shrinks_replaceNull).trans (and_congr_left'
      ((shrinks_cleaned.comp_eq_self_iff hget).trans (and_congr_right'
        (Query.get_eq_self_iff opens_failureQuery))))
  rw [hsteps]
  constructor
  · rintro ⟨⟨hclean, hplain⟩, hnull⟩
    exact unchanged_of_cleaned hclean hplain hnull
  · intro h
    refine ⟨⟨cleaned_of_unchanged h, h.query⟩, ?_⟩
    have hnull : ∀ c ∈ u, Html.replaceNull c = c := by
      intro c hc
      have hurl := h.url c hc
      simp only [List.mem_cons, not_or] at hurl
      rw [Html.replaceNull, if_neg hurl.2.2.2.2.1]
    rw [List.map_congr_left hnull, List.map_id']

/-! ### The last submission -/

/-- A URL that becomes the `Location` as it is. -/
structure Deliverable (u : GoString) : Prop where
  path : CleanURL u
  newline : '\n' ∉ u ∧ '\r' ∉ u
  last : ∀ c ∈ u.getLast?, isASCIISpace c = false

theorem headerValue_eq_self_iff {u : GoString} (hfirst : u.head?.any isASCIISpace = false) :
    headerValue u = u ↔ ('\n' ∉ u ∧ '\r' ∉ u) ∧ ∀ c ∈ u.getLast?, isASCIISpace c = false := by
  have hstrip : strip isASCIISpace u = u ↔ ∀ c ∈ u.getLast?, isASCIISpace c = false := by
    have hfront : u.dropWhile isASCIISpace = u := by
      cases u with
      | nil => rfl
      | cons c u => exact List.dropWhile_cons_of_neg (by simpa using hfirst)
    rw [strip, hfront, List.rdropWhile_eq_self_iff]
    constructor
    · intro h c hc
      obtain ⟨hne, rfl⟩ := List.mem_getLast?_eq_getLast hc
      simpa using h hne
    · intro h hne
      simpa using h _ (List.getLast?_eq_some_getLast hne)
  have hnewline : u.map headerNewlineToSpace = u ↔ '\n' ∉ u ∧ '\r' ∉ u := by
    have hself : u.map headerNewlineToSpace = u ↔ ∀ c ∈ u, headerNewlineToSpace c = c := by
      conv_lhs => rhs; rw [← List.map_id u]
      exact List.map_inj_left
    rw [hself]
    constructor
    · intro h
      constructor <;> intro hmem <;> exact absurd (h _ hmem) (by decide)
    · rintro ⟨hn, hr⟩ c hc
      exact if_neg fun h => h.elim (fun h => hn (h ▸ hc)) fun h => hr (h ▸ hc)
  rw [← hnewline, ← hstrip, headerValue, trimString]
  constructor
  · intro h
    have hsub : (strip isASCIISpace (u.map headerNewlineToSpace)).Sublist
        (u.map headerNewlineToSpace) :=
      (List.rdropWhile_prefix _ _).sublist.trans (List.dropWhile_sublist _)
    have hself := hsub.eq_of_length_le (by rw [h, List.length_map])
    rw [h] at hself
    exact ⟨hself.symm, by rwa [← hself] at h⟩
  · rintro ⟨hmap, h⟩
    rw [hmap, h]

/-- Neither step adds a character, so a URL that is sent comes through both. -/
theorem headerValue_httpRedirect_iff {u : GoString} (hfirst : u.head?.any isASCIISpace = false) :
    headerValue (httpRedirect u) = u ↔ Deliverable u := by
  have hlength : ∀ s : GoString, (headerValue s).length ≤ s.length := by
    intro s
    have hsub : (headerValue s).Sublist (s.map headerNewlineToSpace) :=
      (List.rdropWhile_prefix _ _).sublist.trans (List.dropWhile_sublist _)
    simpa using hsub.length_le
  have hsent : headerValue (httpRedirect u) = u ↔ httpRedirect u = u ∧ headerValue u = u := by
    constructor
    · intro h
      have hle := hlength (httpRedirect u)
      rw [h] at hle
      have hself := (httpRedirect_sublist u).eq_of_length_le hle
      exact ⟨hself, by rwa [hself] at h⟩
    · rintro ⟨hself, h⟩
      rwa [hself]
  rw [hsent, httpRedirect_eq_self_iff, headerValue_eq_self_iff hfirst]
  exact ⟨fun h => ⟨h.1, h.2.1, h.2.2⟩, fun h => ⟨h.path, h.newline, h.last⟩⟩

theorem response_of_succeeds {s : Submission} (h : s.Succeeds) (sessionTTL : ℤ) (field : GoString) :
    s.response sessionTTL field =
      if field ≠ [] ∧ isValidRedirect field then .redirect (httpRedirect field) else .page := by
  obtain ⟨user, huser⟩ := Option.ne_none_iff_exists'.1 h.authenticated
  obtain ⟨peer, hpeer⟩ := Option.ne_none_iff_exists'.1 h.peer
  rw [Submission.response, request_eq, handleAuth, if_neg (not_not.2 rfl)]
  simp only [huser, hpeer]

variable {u : GoString} {failed : List Submission} {last : Submission}

theorem head?_of_isValidRedirect (hu : isValidRedirect u = true) :
    u.head?.any isASCIISpace = false := by
  have hprefix : ∃ c ∈ ['/', 'h'], ∃ s, u = c :: s := by
    rw [isValidRedirect] at hu
    split_ifs at hu with hslash
    · obtain ⟨s, rfl⟩ := List.isPrefixOf_iff_prefix.1 hslash
      exact ⟨'/', by simp, s, rfl⟩
    · simp only [Bool.and_eq_true, Bool.or_eq_true] at hu
      rcases hu.2 with h | h
      all_goals
        obtain ⟨s, rfl⟩ := List.isPrefixOf_iff_prefix.1 h
        exact ⟨'h', by simp, _, rfl⟩
  obtain ⟨c, hc, s, rfl⟩ := hprefix
  simp only [List.mem_cons, List.not_mem_nil, or_false] at hc
  rcases hc with rfl | rfl <;> rfl

theorem survives_iff_carried (sessionTTL : ℤ) (hu : isValidRedirect u = true)
    (hfailed : ∀ s ∈ failed, s.Fails) (hlast : last.Succeeds) :
    Survives sessionTTL u failed last ↔ Deliverable u ∧ (failed = [] ∨ carried u = u) := by
  have hne : u ≠ [] := by
    rintro rfl
    exact absurd hu (by decide)
  rw [← shrinks_carried.foldl_eq_self_iff failed u, Survives,
    fieldAfter_of_fails sessionTTL hfailed]
  simp only [Option.some.injEq, exists_eq_left', request_eq]
  have hredirects : RedirectsTo (last.response sessionTTL u) u ↔ Deliverable u := by
    rw [response_of_succeeds hlast, if_pos ⟨hne, hu⟩, RedirectsTo]
    simp only [AuthResponse.redirect.injEq, exists_eq_left',
      headerValue_httpRedirect_iff (head?_of_isValidRedirect hu)]
  constructor
  · rintro ⟨hfield, hlocation⟩
    rw [hfield] at hlocation
    exact ⟨hredirects.1 hlocation, hfield⟩
  · rintro ⟨hdelivered, hfield⟩
    rw [hfield]
    exact ⟨rfl, hredirects.2 hdelivered⟩

/-- **A URL comes through failed logins exactly when it can be sent, that is, its path is clean or
not cleaned, it has no line break and ends with no space; and when there are none, or it has no
`%`, `+`, `&`, `;` or `#`, no tab, line break or U+0000, and no space or control at its end.** -/
theorem survives_iff (sessionTTL : ℤ) (hu : isValidRedirect u = true)
    (hfailed : ∀ s ∈ failed, s.Fails) (hlast : last.Succeeds) :
    Survives sessionTTL u failed last ↔ Deliverable u ∧ (failed = [] ∨ Unchanged u) := by
  rw [survives_iff_carried sessionTTL hu hfailed hlast, carried_eq_self_iff]

/-! ### A mistyped password -/

/-- A submission of `admin`. -/
def adminSubmits (password : GoString) : Submission where
  username := "admin".toList
  password := password
  remoteAddr := "192.168.1.50:12345".toList
  auth := adminOnly
  resolver := .new 1
  now := 0

def mistyped : Submission := adminSubmits "admin132".toList

def correct : Submission := adminSubmits "admin123".toList

theorem mistyped_fails : mistyped.Fails := rfl

theorem correct_succeeds : correct.Succeeds :=
  ⟨Option.some_ne_none (⟨1, 2⟩ : UserInfo), by decide +kernel⟩

theorem path_survives :
    Survives 0 "/noticias?id=7".toList [mistyped, mistyped] correct :=
  (survives_iff 0 rfl (by simp [mistyped_fails]) correct_succeeds).2
    ⟨⟨by decide +kernel, by simp, by simp [isASCIISpace]⟩, .inr ⟨by decide, by simp, by simp⟩⟩

/-- One mistyped password loses the second parameter of a URL. -/
theorem parameter_lost :
    isValidRedirect "http://example.com/?a=1&b=2".toList = true ∧ mistyped.Fails ∧
      correct.Succeeds ∧ ¬ Survives 0 "http://example.com/?a=1&b=2".toList [mistyped] correct := by
  refine ⟨rfl, mistyped_fails, correct_succeeds, fun h => ?_⟩
  rw [survives_iff_carried 0 rfl (by simp [mistyped_fails]) correct_succeeds,
    carried_eq_self_iff] at h
  rcases h.2 with h | h
  · cases h
  · exact h.query '&' (by simp) (by decide)

end DnsFilter
