import DnsFilter.Identity.Text

/-!
# Peers

The address of a peer, the text in which an HTTP server sees it (`RemoteAddr`), and the two
ways in which the program gets the client's IP from it: `SplitHostPort` and `ParseIP` in the
portal, the field `IP` in the DNS handler (`extractIP`).

* `splitHostPort_string`, `splitHostPort_string_of_bracket`: the text splits unless the zone
  has a bracket;
* `canonical_parseIP_host`, `parseIP_host_of_zone`: without a zone the host is read back as
  the address, with a zone it is not read at all.
-/

namespace DnsFilter

open GoString

/-- `SplitHostPort`, `none` where it returns an error. -/
def splitHostPort (hostport : GoString) : Option (GoString × GoString) :=
  if ':' ∉ hostport then none
  else
    -- the port starts after the last colon
    let port := (hostport.reverse.takeWhile (· ≠ ':')).reverse
    let i := hostport.length - port.length - 1
    if hostport.head? = some '[' then
      if ']' ∉ hostport then none
      else
        let stop := (before hostport ']').length
        if stop + 1 ≠ i then none
        else if '[' ∈ hostport.drop 1 ∨ ']' ∈ hostport.drop (stop + 1) then none
        else some ((hostport.take stop).drop 1, port)
    else
      let host := hostport.take i
      if ':' ∈ host ∨ '[' ∈ hostport ∨ ']' ∈ hostport then none
      else some (host, port)

/-- `JoinHostPort`. -/
def joinHostPort (host port : GoString) : GoString :=
  if ':' ∈ host then '[' :: (host ++ ']' :: ':' :: port) else host ++ ':' :: port

/-- A `TCPAddr` or a `UDPAddr` of a client; only IPv6 addresses have zones. -/
structure NetAddr where
  ip : IP
  port : UInt16
  zone : GoString
  ip_ne : ip ≠ .nil
  zoned : zone ≠ [] → ip.to4 = none

namespace NetAddr

/-- The host of `String`. -/
def host (a : NetAddr) : GoString :=
  if a.zone ≠ [] then a.ip.string ++ '%' :: a.zone else a.ip.string

/-- `String`. -/
def string (a : NetAddr) : GoString := joinHostPort a.host (Nat.toDigits 10 a.port.toNat)

end NetAddr

/-- The `net.Addr` of a DNS client. -/
inductive RemoteAddr
  | udp (addr : NetAddr)
  | tcp (addr : NetAddr)
  | other (text : GoString)

/-- `extractIP`. -/
def extractIP : RemoteAddr → IP
  | .udp v => v.ip
  | .tcp v => v.ip
  | .other text =>
      match splitHostPort text with
      | some (host, _) => parseIP host
      | none => .nil

example : splitHostPort "[2001:db8::1]:53".toList =
    some ("2001:db8::1".toList, "53".toList) := by decide

/-! ### Splitting what was joined -/

/-- The runes after the last colon. -/
theorem takeWhile_reverse_colon (s : GoString) {port : GoString} (hport : ':' ∉ port) :
    ((s ++ ':' :: port).reverse.takeWhile (· ≠ ':')).reverse = port := by
  rw [List.reverse_append, List.reverse_cons, List.append_assoc, List.singleton_append,
    Lines.takeWhile_append_sep (mt List.mem_reverse.1 hport), List.reverse_reverse]

/-- The first occurrence of a rune lies in the part that has one. -/
theorem length_before_lt {s t : GoString} {c : Char} (h : c ∈ s) :
    (before (s ++ t) c).length < s.length := by
  have hne : (s.takeWhile (· ≠ c)).length ≠ s.length := by
    intro hlength
    have hself := (List.takeWhile_prefix (p := (· ≠ c)) (l := s)).eq_of_length hlength
    simpa using List.takeWhile_eq_self_iff.1 hself c h
  rw [before, List.takeWhile_append, if_neg hne]
  exact lt_of_le_of_ne (List.takeWhile_prefix _).length_le hne

theorem before_append_cons {s t : GoString} {c : Char} (h : c ∉ s) :
    before (s ++ c :: t) c = s := Lines.takeWhile_append_sep h t

section HostPort

variable {host port : GoString} (hport : ∀ c ∈ port, c ≠ ':' ∧ c ≠ '[' ∧ c ≠ ']')

include hport

/-- A host without colons. -/
theorem splitHostPort_plain (h : ':' ∉ host) (hleft : '[' ∉ host) (hright : ']' ∉ host) :
    splitHostPort (host ++ ':' :: port) = some (host, port) := by
  have hopen : '[' ∉ host ++ ':' :: port := by
    simpa [hleft] using fun hmem => (hport _ hmem).2.1 rfl
  have hclose : ']' ∉ host ++ ':' :: port := by
    simpa [hright] using fun hmem => (hport _ hmem).2.2 rfl
  have hhead : (host ++ ':' :: port).head? ≠ some '[' := fun hhead =>
    hopen (List.mem_of_head? hhead)
  have hlast := takeWhile_reverse_colon host fun hmem => (hport _ hmem).1 rfl
  have hlength : (host ++ ':' :: port).length - port.length - 1 = host.length := by
    rw [List.length_append, List.length_cons]
    omega
  rw [splitHostPort, if_neg (by simp)]
  simp only [hlast, hlength, if_neg hhead, List.take_left, h, hopen, hclose, or_self, if_false]

/-- A host in brackets. -/
theorem splitHostPort_bracketed :
    splitHostPort ('[' :: (host ++ ']' :: ':' :: port)) =
      if '[' ∈ host ∨ ']' ∈ host then none else some (host, port) := by
  have hlast := takeWhile_reverse_colon ('[' :: host ++ [']']) fun hmem => (hport _ hmem).1 rfl
  simp only [List.append_assoc, List.cons_append, List.nil_append] at hlast
  have hlength : ('[' :: (host ++ ']' :: ':' :: port)).length - port.length - 1 =
      host.length + 2 := by
    simp only [List.length_append, List.length_cons]
    omega
  rw [splitHostPort, if_neg (by simp)]
  simp only [hlast, hlength, List.head?_cons, if_true]
  rw [if_neg (by simp)]
  by_cases hright : ']' ∈ host
  · -- the first closing bracket is not the one before the port
    have hstop : (before ('[' :: (host ++ ']' :: ':' :: port)) ']').length < host.length + 1 :=
      length_before_lt (List.mem_cons_of_mem '[' hright)
    rw [if_pos (by omega), if_pos (.inr hright)]
  · have hstop : before ('[' :: (host ++ ']' :: ':' :: port)) ']' = '[' :: host :=
      before_append_cons (List.not_mem_cons_of_ne_of_not_mem (by decide) hright)
    have hrest : ('[' :: (host ++ ']' :: ':' :: port)).drop (host.length + 1 + 1) =
        ':' :: port := by
      simp
    have hhost : (('[' :: (host ++ ']' :: ':' :: port)).take (host.length + 1)).drop 1 = host := by
      simp
    have hclose : ']' ∉ ':' :: port := by
      simpa using fun hmem => (hport _ hmem).2.2 rfl
    have hopen : '[' ∈ host ++ ']' :: ':' :: port ↔ '[' ∈ host := by
      simpa using fun hmem => absurd rfl (hport _ hmem).2.1
    simp only [hstop, List.length_cons, hrest, hhost, hclose, List.drop_one, List.tail_cons, hopen,
      hright, or_false, ne_eq, not_true_eq_false, if_false]

/-- A host without brackets. -/
theorem splitHostPort_joinHostPort (hleft : '[' ∉ host) (hright : ']' ∉ host) :
    splitHostPort (joinHostPort host port) = some (host, port) := by
  unfold joinHostPort
  split_ifs with h
  · rw [splitHostPort_bracketed hport, if_neg (not_or.2 ⟨hleft, hright⟩)]
  · exact splitHostPort_plain hport h hleft hright

/-- A bracket in the host. -/
theorem splitHostPort_joinHostPort_eq_none (h : ':' ∈ host) (hbracket : '[' ∈ host ∨ ']' ∈ host) :
    splitHostPort (joinHostPort host port) = none := by
  rw [joinHostPort, if_pos h, splitHostPort_bracketed hport, if_pos hbracket]

end HostPort

/-! ### The two ways to the client's address -/

namespace NetAddr

variable (a : NetAddr)

theorem port_plain : ∀ c ∈ Nat.toDigits 10 a.port.toNat, c ≠ ':' ∧ c ≠ '[' ∧ c ≠ ']' := by
  have hnot : ∀ {c : Char}, digitValue 16 c = none → c ∉ Nat.toDigits 10 a.port.toNat := fun hc =>
    not_mem_toDigits (by norm_num) (by norm_num) _ hc
  intro c hc
  refine ⟨?_, ?_, ?_⟩
  · rintro rfl
    exact hnot (by decide) hc
  · rintro rfl
    exact hnot (by decide) hc
  · rintro rfl
    exact hnot (by decide) hc

/-- An address is printed without brackets. -/
theorem bracket_not_mem_string (ip : IP) : '[' ∉ ip.string ∧ ']' ∉ ip.string := by
  unfold IP.string
  split
  · refine ⟨fun h => ?_, fun h => ?_⟩ <;> rcases mem_string4 h with h | h <;> cases h
  · refine ⟨fun h => ?_, fun h => ?_⟩ <;> rcases mem_string6 h with h | h <;> cases h
  · decide

/-- Only addresses printed with colons have zones. -/
theorem string_of_zone (h : a.zone ≠ []) : ∃ x, a.ip.string = string6 x := by
  have hto4 := a.zoned h
  cases hip : a.ip with
  | nil => exact absurd hip a.ip_ne
  | v4 x =>
    rw [hip] at hto4
    cases hto4
  | v6 x =>
    rw [hip] at hto4
    exact ⟨x, by simp [IP.string, hto4]⟩

/-- The zone has a bracket. -/
def Bracketed : Prop := '[' ∈ a.zone ∨ ']' ∈ a.zone

variable {a}

theorem splitHostPort_string (h : ¬ a.Bracketed) :
    splitHostPort a.string = some (a.host, Nat.toDigits 10 a.port.toNat) := by
  obtain ⟨hleft, hright⟩ := not_or.1 h
  obtain ⟨hleft', hright'⟩ := bracket_not_mem_string a.ip
  refine splitHostPort_joinHostPort a.port_plain ?_ ?_
  · unfold host
    split_ifs <;> simp [*]
  · unfold host
    split_ifs <;> simp [*]

theorem splitHostPort_string_of_bracket (h : a.Bracketed) : splitHostPort a.string = none := by
  have hzone : a.zone ≠ [] := by
    intro hzone
    simp [Bracketed, hzone] at h
  obtain ⟨x, hx⟩ := a.string_of_zone hzone
  refine splitHostPort_joinHostPort_eq_none a.port_plain ?_ ?_
  · rw [host, if_pos hzone, hx]
    exact List.mem_append_left _ (colon_mem_string6 x)
  · rw [host, if_pos hzone]
    rcases h with h | h
    · exact .inl (by simp [h])
    · exact .inr (by simp [h])

/-- Without a zone, the host is read back as the address. -/
theorem canonical_parseIP_host (h : a.zone = []) : (parseIP a.host).canonical = a.ip.canonical := by
  rw [host, if_neg (not_not.2 h), canonical_parseIP_string]

/-- With a zone, the host is no address to `ParseIP`. -/
theorem parseIP_host_of_zone (h : a.zone ≠ []) : parseIP a.host = .nil := by
  obtain ⟨x, hx⟩ := a.string_of_zone h
  rw [host, if_pos h, hx, parseIP, List.find?_append, find?_string6, Option.some_or]
  simp

end NetAddr

end DnsFilter
