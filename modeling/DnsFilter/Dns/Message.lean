import DnsFilter.Identity.IP

/-!
# DNS messages

Messages as `github.com/miekg/dns` holds them in memory.  The functions of that package
that the program calls are the fields of the class `Miekg`, together with the facts about
them that the program relies on.

* `Question`, `RR`, `Msg`;
* `Miekg`: `TypeToString`, `SetReply`, `Fqdn` and the wire format;
* `Received`: a message that was read from the wire;
* `plainMiekg`: an instance whose wire format is the message itself.
-/

namespace DnsFilter

/-- A question.  Names are in presentation format, which is ASCII. -/
structure Question where
  name : GoString
  qtype : UInt16
  qclass : UInt16
  ascii : ∀ c ∈ name, c.toNat < 128
  deriving DecidableEq

theorem ascii_of_all {name : GoString} (h : name.all (·.toNat < 128) = true) :
    ∀ c ∈ name, c.toNat < 128 := by simpa using h

/-- The data of a resource record; only addresses are looked into. -/
inductive RData
  | a (address : IP)
  | aaaa (address : IP)
  | other (text : GoString)
  deriving DecidableEq

structure RR where
  name : GoString
  rrtype : UInt16
  rrclass : UInt16
  ttl : UInt32
  data : RData
  deriving DecidableEq

/-- A message; the default is `new(dns.Msg)`. -/
structure Msg where
  id : UInt16 := 0
  response : Bool := false
  opcode : ℕ := 0
  authoritative : Bool := false
  truncated : Bool := false
  recursionDesired : Bool := false
  recursionAvailable : Bool := false
  zero : Bool := false
  authenticatedData : Bool := false
  checkingDisabled : Bool := false
  rcode : ℕ := 0
  question : List Question := []
  answer : List RR := []
  ns : List RR := []
  extra : List RR := []
  deriving DecidableEq

def rcodeSuccess : ℕ := 0

def rcodeServerFailure : ℕ := 2

def rcodeNameError : ℕ := 3

def typeA : UInt16 := 1

def typeAAAA : UInt16 := 28

def classINET : UInt16 := 1

/-- What the header of a reply says apart from echoing the request. -/
structure Msg.SameHeader (m m' : Msg) : Prop where
  authoritative : m.authoritative = m'.authoritative
  truncated : m.truncated = m'.truncated
  recursionAvailable : m.recursionAvailable = m'.recursionAvailable
  zero : m.zero = m'.zero
  authenticatedData : m.authenticatedData = m'.authenticatedData

/-- Two messages with the same records. -/
structure Msg.SameRecords (m m' : Msg) : Prop where
  answer : m.answer = m'.answer
  ns : m.ns = m'.ns
  extra : m.extra = m'.extra

/-- `m` answers the request `r`: its identifier, opcode and first question are those of the
request, and so are the bits `RD` and `CD` of a standard query. -/
structure Msg.Echoes (m r : Msg) : Prop where
  id : m.id = r.id
  response : m.response = true
  opcode : m.opcode = r.opcode
  recursionDesired : r.opcode = 0 → m.recursionDesired = r.recursionDesired
  checkingDisabled : r.opcode = 0 → m.checkingDisabled = r.checkingDisabled
  question : r.question ≠ [] → m.question = r.question.take 1

/-- The package `github.com/miekg/dns`. -/
class Miekg where
  /-- The map `TypeToString`, empty for an unknown type. -/
  typeToString : UInt16 → GoString
  pipe_notMem_typeToString : ∀ t, '|' ∉ typeToString t
  /-- `m.SetReply(r)`. -/
  setReply : Msg → Msg → Msg
  setReply_echoes : ∀ m r, (setReply m r).Echoes r
  setReply_rcode : ∀ m r, (setReply m r).rcode = rcodeSuccess
  setReply_header : ∀ m r, (setReply m r).SameHeader m
  setReply_records : ∀ m r, (setReply m r).SameRecords m
  fqdn : GoString → GoString
  /-- Messages in the wire format. -/
  Wire : Type
  pack : Msg → Option Wire
  unpack : Wire → Option Msg
  /-- Packing a message that was unpacked loses nothing. -/
  unpack_pack : ∀ {w m w'}, unpack w = some m → pack m = some w' → unpack w' = some m
  /-- Some responses do have answers. -/
  exists_answer : ∃ w m, unpack w = some m ∧ m.answer ≠ []

/-- `m.SetRcode(r, rcode)` on a new message. -/
def Msg.setRcode [Miekg] (r : Msg) (rcode : ℕ) : Msg := { Miekg.setReply {} r with rcode := rcode }

/-- A message as it came from the wire. -/
structure Received [Miekg] where
  msg : Msg
  wire : Miekg.Wire
  unpacks : Miekg.unpack wire = some msg

/-- Some of the names of `TypeToString`. -/
def typeName (t : UInt16) : GoString :=
  match t.toNat with
  | 1 => "A".toList
  | 2 => "NS".toList
  | 5 => "CNAME".toList
  | 6 => "SOA".toList
  | 12 => "PTR".toList
  | 15 => "MX".toList
  | 16 => "TXT".toList
  | 28 => "AAAA".toList
  | 33 => "SRV".toList
  | 65 => "HTTPS".toList
  | 255 => "ANY".toList
  | _ => []

/-- The package with a wire format that needs no encoding. -/
@[reducible] def plainMiekg : Miekg where
  typeToString := typeName
  pipe_notMem_typeToString t := by
    unfold typeName
    split <;> decide
  setReply m r :=
    { m with
      id := r.id
      response := true
      opcode := r.opcode
      recursionDesired := if r.opcode = 0 then r.recursionDesired else m.recursionDesired
      checkingDisabled := if r.opcode = 0 then r.checkingDisabled else m.checkingDisabled
      rcode := rcodeSuccess
      question := if r.question = [] then m.question else r.question.take 1 }
  setReply_echoes m r :=
    ⟨rfl, rfl, rfl, fun h => if_pos h, fun h => if_pos h, fun h => if_neg h⟩
  setReply_rcode _ _ := rfl
  setReply_header _ _ := ⟨rfl, rfl, rfl, rfl, rfl⟩
  setReply_records _ _ := ⟨rfl, rfl, rfl⟩
  fqdn s := if s.getLast? = some '.' then s else s ++ ['.']
  Wire := Msg
  pack := some
  unpack := some
  unpack_pack _ h := by rw [Option.some.inj h]
  exists_answer := ⟨{ answer := [⟨[], typeA, classINET, 0, .a .nil⟩] }, _, rfl, by simp⟩

/-- A question for the address of `a.com.`, in some class. -/
def questionIn (qclass : UInt16) : Question :=
  ⟨"a.com.".toList, typeA, qclass, ascii_of_all rfl⟩

/-- A response with one answer that lives for 60 seconds. -/
def shortLived : Msg :=
  { response := true, answer := [⟨"a.com.".toList, typeA, classINET, 60, .a (.v4 0x01020304#32)⟩] }

end DnsFilter
