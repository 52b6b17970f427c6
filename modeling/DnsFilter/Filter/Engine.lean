import DnsFilter.Filter.Blacklist
import DnsFilter.Lib.Expiring

/-!
# The policy engine

`Engine` of `internal/filter/engine.go`: whitelist, global blacklist, and the category
policy of the client's group, in this order.

`EvaluateForGroup` reads the whitelist, the blacklist and the policy tables in three
separate locked steps; `policyCheck` is the third one.
-/

namespace DnsFilter

open GoString

/-- The filtering decision. -/
inductive Action
  | allow
  | block
  deriving DecidableEq

/-- Decision and reason; `categoryID` is `0` when no category is involved. -/
structure Result where
  action : Action
  reason : String := ""
  categoryID : ℤ := 0
  deriving DecidableEq

/-- Group → set of blocked categories. -/
abbrev Policies := Finmap fun _ : ℤ => Finset ℤ

/-- Category → domains, as the store loads it. -/
abbrev CatDomains := Finmap fun _ : ℤ => List GoString

/-- An order in which `range` may enumerate a Go map. -/
def Enumerates {β : Type*} (order : List (Σ _ : ℤ, β)) (m : Finmap fun _ : ℤ => β) : Prop :=
  (order : Multiset (Σ _ : ℤ, β)) = m.entries

/-- A list that the engine was given as `nil` contains nothing, like the empty one. -/
structure Engine where
  blacklist : Blacklist
  whitelist : Blacklist
  domainCategories : Finmap fun _ : GoString => ℤ
  groupPolicies : Policies

/-- Which of the two lists. -/
inductive ListKind
  | black
  | white
  deriving DecidableEq

/-- The scan for the non-empty components between two dots. -/
def splitDomainLoop : GoString → GoString → List GoString → List GoString
  | [], current, result => if current ≠ [] then result ++ [current] else result
  | c :: cs, current, result =>
      if c = '.' then splitDomainLoop cs [] (if current ≠ [] then result ++ [current] else result)
      else splitDomainLoop cs (current ++ [c]) result

/-- The non-empty labels of a domain. -/
def splitDomain (domain : GoString) : List GoString := splitDomainLoop domain [] []

def joinDomain (parts : List GoString) : GoString := join parts '.' ++ ".".toList

namespace Engine

/-- `NewEngine`. -/
def new (blacklist whitelist : Blacklist) : Engine := ⟨blacklist, whitelist, ∅, ∅⟩

/-- The list of a kind. -/
def list (e : Engine) : ListKind → Blacklist
  | .black => e.blacklist
  | .white => e.whitelist

/-- Replace the policies. -/
def loadPolicies (e : Engine) (policies : Policies) : Engine := { e with groupPolicies := policies }

/-- Walk up the domain tree to find a category. -/
def findParentCategory (e : Engine) (domain : GoString) : Option ℤ :=
  let parts := splitDomain domain
  (List.range' 1 (parts.length - 2)).findSome? fun i =>
    e.domainCategories.lookup (joinDomain (parts.drop i))

variable [Unicode]

/-- The `domain → category` pairs of one enumeration, in the order they are written. -/
def categoryWrites (order : List (Σ _ : ℤ, List GoString)) : List (GoString × ℤ) :=
  order.flatMap fun e => e.2.map fun d => (normalize d, e.1)

/-- The map a sequence of writes leaves behind. -/
def writeCategories (ws : List (GoString × ℤ)) : Finmap fun _ : GoString => ℤ :=
  ws.foldl (fun m w => m.insert w.1 w.2) ∅

/-- Rebuild the category map, enumerating the argument in the given order. -/
def loadCategories (e : Engine) (order : List (Σ _ : ℤ, List GoString)) : Engine :=
  { e with domainCategories := writeCategories (categoryWrites order) }

/-- The third locked step of an evaluation: the blocked category, if there is one. -/
def policyCheck (e : Engine) (domain : GoString) (groupID : ℤ) : Option ℤ :=
  if 0 < groupID then
    let normalized := normalize domain
    let cat := match e.domainCategories.lookup normalized with
      | some catID => some catID
      | none => e.findParentCategory normalized
    cat.filter fun catID =>
      match e.groupPolicies.lookup groupID with
      | some blockedCats => catID ∈ blockedCats
      | none => false
  else none

/-- Evaluate a domain under the policy of a group. -/
def evaluateForGroup (e : Engine) (domain : GoString) (groupID : ℤ) : Result :=
  if e.whitelist.contains domain then { action := .allow, reason := "whitelist" }
  else if e.blacklist.contains domain then { action := .block, reason := "blacklist" }
  else match e.policyCheck domain groupID with
    | some catID => { action := .block, reason := "category", categoryID := catID }
    | none => { action := .allow }

/-- `Evaluate`: the evaluation without a group. -/
def evaluate (e : Engine) (domain : GoString) : Result := e.evaluateForGroup domain 0

/-- The action of an evaluation, as a function of its three reads. -/
theorem evaluateForGroup_action (e : Engine) (domain : GoString) (groupID : ℤ) :
    (e.evaluateForGroup domain groupID).action = .allow ↔
      e.whitelist.contains domain ∨
        (e.blacklist.contains domain = false ∧ e.policyCheck domain groupID = none) := by
  unfold evaluateForGroup
  by_cases hw : e.whitelist.contains domain
  · simp [hw]
  · by_cases hb : e.blacklist.contains domain
    · simp [hw, hb]
    · cases hp : e.policyCheck domain groupID <;> simp [hw, hb]

end Engine
end DnsFilter
