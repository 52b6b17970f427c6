import DnsFilter.GoString
import Mathlib.Data.Finset.Union

/-!
# Domain lists

`Blacklist` of `internal/filter/blacklist.go`: a set of normalised domains with exact and
parent-domain lookup.  The program keeps two of them, the blacklist and the whitelist.

`contains_iff` reduces a lookup to membership of one of finitely many *candidates*, the
normalised name and its proper suffixes of at least two labels; everything later modules
need about lookups follows from it and from the content lemmas `domains_addAll`, `domains_clear`.
-/

namespace DnsFilter

open GoString

section Normalize

variable [Unicode]

/-- Lower-case FQDN with trailing dot. -/
def normalize (domain : GoString) : GoString :=
  let domain := toLower (trimSpace domain)
  if hasSuffix domain ".".toList then domain else domain ++ ".".toList

end Normalize

/-- Extract a domain from a trimmed line, which may be in hosts file format. -/
def parseLine (line : GoString) : GoString :=
  let line := if '#' ∈ line then trimSpace (before line '#') else line
  if line = [] then []
  else
    match fields line with
    | [domain] => domain
    | pre :: domain :: _ =>
        -- hosts file format: skip the address; any other line of several fields is dropped
        if pre = "127.0.0.1".toList ∨ pre = "0.0.0.0".toList ∨ pre = "::1".toList then domain
        else []
    | [] => []

/-- The domains of a list text in the order of their lines, and whether reading failed. -/
def scanDomains (text : GoString) : List GoString × Bool :=
  let (lines, err) := scanLines text
  (lines.filterMap fun raw =>
    let line := trimSpace raw
    if line = [] ∨ hasPrefix line "#".toList then none
    else
      let domain := parseLine line
      if domain = [] then none else some domain, err)

/-- A set of domains in normalised form. -/
structure Blacklist where
  domains : Finset GoString
  deriving DecidableEq

/-- What `LoadFromFile` reports besides the number of domains. -/
inductive LoadError
  | openFailed
  | readFailed
  deriving DecidableEq

namespace Blacklist

/-- `NewBlacklist`. -/
def new : Blacklist := ⟨∅⟩

def clear (_ : Blacklist) : Blacklist := new

def size (b : Blacklist) : ℕ := b.domains.card

@[simp] theorem domains_new : new.domains = ∅ := rfl

@[simp] theorem domains_clear (b : Blacklist) : b.clear.domains = ∅ := rfl

variable [Unicode]

def add (b : Blacklist) (domain : GoString) : Blacklist := ⟨insert (normalize domain) b.domains⟩

def remove (b : Blacklist) (domain : GoString) : Blacklist :=
  ⟨b.domains.erase (normalize domain)⟩

/-- Exact match, then the parents `parts[i:]` for `1 ≤ i < len(parts) - 1`. -/
def contains (b : Blacklist) (domain : GoString) : Bool :=
  let domain := normalize domain
  decide (domain ∈ b.domains) ||
    (let parts := split domain '.'
     (List.range' 1 (parts.length - 2)).any fun i =>
       decide (join (parts.drop i) '.' ∈ b.domains))

/-- The loops `for _, d := range ds { b.Add(d) }`. -/
def addAll (b : Blacklist) (ds : List GoString) : Blacklist := ds.foldl add b

/-- Add the domains of a file; `none` is a file that cannot be opened. -/
def loadFromFile (b : Blacklist) : Option GoString → Blacklist × ℕ × Option LoadError
  | none => (b, 0, some .openFailed)
  | some text =>
      let (ds, err) := scanDomains text
      (b.addAll ds, ds.length, if err then some .readFailed else none)

/-! ### Contents -/

@[simp] theorem domains_add (b : Blacklist) (d : GoString) :
    (b.add d).domains = insert (normalize d) b.domains := rfl

@[simp] theorem addAll_nil (b : Blacklist) : b.addAll [] = b := rfl

@[simp] theorem addAll_cons (b : Blacklist) (d : GoString) (ds : List GoString) :
    b.addAll (d :: ds) = (b.add d).addAll ds := rfl

/-- The normalised forms of a list of domains. -/
def normalized (ds : List GoString) : Finset GoString := (ds.map normalize).toFinset

theorem mem_normalized {ds : List GoString} {p : GoString} :
    p ∈ normalized ds ↔ ∃ d ∈ ds, normalize d = p := by simp [normalized]

@[simp] theorem normalized_append (ds es : List GoString) :
    normalized (ds ++ es) = normalized ds ∪ normalized es := by
  simp [normalized, List.toFinset_append]

@[simp] theorem domains_addAll (b : Blacklist) (ds : List GoString) :
    (b.addAll ds).domains = b.domains ∪ normalized ds := by
  induction ds generalizing b with
  | nil => simp [normalized]
  | cons d ds ih =>
    rw [addAll_cons, ih]
    ext p
    simp only [domains_add, Finset.mem_union, Finset.mem_insert, mem_normalized, List.mem_cons,
      exists_eq_or_imp]
    tauto

/-! ### Lookups -/

/-- The set entries that make a lookup of `domain` succeed. -/
def candidates (domain : GoString) : List GoString :=
  let parts := split (normalize domain) '.'
  normalize domain :: (List.range' 1 (parts.length - 2)).map fun i => join (parts.drop i) '.'

theorem contains_iff {b : Blacklist} {domain : GoString} :
    b.contains domain ↔ ∃ p ∈ candidates domain, p ∈ b.domains := by
  simp [contains, candidates]

/-- An entry `d` covers a name when its normal form is one of the name's candidates. -/
def Covers (d domain : GoString) : Prop := normalize d ∈ candidates domain

instance (d domain : GoString) : Decidable (Covers d domain) :=
  inferInstanceAs (Decidable (_ ∈ _))

@[simp] theorem contains_new (domain : GoString) : new.contains domain = false := by
  rw [Bool.eq_false_iff]
  simp [contains_iff]

theorem contains_add {b : Blacklist} {d domain : GoString} :
    (b.add d).contains domain ↔ Covers d domain ∨ b.contains domain := by
  simp only [contains_iff, domains_add, Finset.mem_insert, Covers]
  constructor
  · rintro ⟨p, hp, rfl | hb⟩
    · exact Or.inl hp
    · exact Or.inr ⟨p, hp, hb⟩
  · rintro (h | ⟨p, hp, hb⟩)
    · exact ⟨_, h, Or.inl rfl⟩
    · exact ⟨p, hp, Or.inr hb⟩

theorem contains_addAll {b : Blacklist} {ds : List GoString} {domain : GoString} :
    (b.addAll ds).contains domain ↔ (∃ d ∈ ds, Covers d domain) ∨ b.contains domain := by
  induction ds generalizing b with
  | nil => simp
  | cons d ds ih =>
    rw [addAll_cons, ih, contains_add, or_left_comm, ← or_assoc]
    simp only [List.mem_cons, exists_eq_or_imp]

end Blacklist
end DnsFilter
