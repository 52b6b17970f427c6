import DnsFilter.Store.Registers
import Mathlib.Data.Finset.SymmDiff

/-!
# Editing categories in the browser

The panels of `web/src/pages/Groups.tsx` and `Lists.tsx` in which the categories of a group or
of a list are ticked, beside the server and whatever else changes its tables.  A panel is filled
by the answer to a `GET`, and saved by a `PUT` that replaces everything; answers to several of
them may come in any order, and late ones fill the panel again.

* `CategoryEditor`: what the two pages have in common, `policyEditor` and `listEditor`;
* `PageEvent.apply`: the clicks, the answers, and the server;
* `save_applies_clicks`: what a `PUT` leaves in the tables is an answer that the server gave for
  the same item, changed by the clicks since.  These clicks are all that the `PUT` does exactly
  if what it replaces is what was answered.
-/

namespace DnsFilter

open EventRun

/-! ### Clicks -/

/-- `toggleCategory`, `toggleListCat`. -/
def toggleCategory (cats : List ℤ) (catID : ℤ) : List ℤ :=
  if catID ∈ cats then cats.filter (· ≠ catID) else cats ++ [catID]

/-- The categories that are clicked an odd number of times. -/
def flips (clicks : List ℤ) : Finset ℤ := clicks.foldl (fun cats catID => symmDiff cats {catID}) ∅

theorem toFinset_toggleCategory (cats : List ℤ) (catID : ℤ) :
    (toggleCategory cats catID).toFinset = symmDiff cats.toFinset {catID} := by
  ext c
  rw [toggleCategory, Finset.mem_symmDiff]
  by_cases hc : c = catID
  · subst hc
    split_ifs with hmem <;> simp [hmem]
  · split_ifs <;> simp [hc]

theorem mem_flips {clicks : List ℤ} {c : ℤ} : c ∈ flips clicks ↔ Odd (clicks.count c) := by
  induction clicks using List.reverseRecOn with
  | nil => simp [flips]
  | append_singleton clicks d ih =>
    rw [flips, List.foldl_append, List.foldl_cons, List.foldl_nil, ← flips, Finset.mem_symmDiff,
      ih, Finset.mem_singleton, List.count_append, List.count_singleton]
    by_cases hcd : c = d
    · subst hcd
      simp [Nat.odd_add_one]
    · simp [hcd, Ne.symm hcd]

/-- Clicks flip membership. -/
theorem toFinset_foldl_toggleCategory (cats clicks : List ℤ) :
    (clicks.foldl toggleCategory cats).toFinset = symmDiff cats.toFinset (flips clicks) := by
  induction clicks using List.reverseRecOn with
  | nil => exact (symmDiff_bot _).symm
  | append_singleton clicks d ih =>
    rw [List.foldl_append, List.foldl_cons, List.foldl_nil, toFinset_toggleCategory, ih,
      symmDiff_assoc, flips, flips, List.foldl_append, List.foldl_cons, List.foldl_nil]

/-! ### The two pages -/

/-- The endpoints behind a panel.  Writing replaces the categories of one item. -/
structure CategoryEditor where
  read : Database → ℤ → List ℤ
  write : ℤ → List ℤ → AdminOp
  remove : ℤ → AdminOp
  read_write : ∀ {db db' : Database} {notes : List Table} {id : ℤ} {cats : List ℤ}, Intact db →
    (write id cats).run db = some (db', notes) → ∀ k,
      (read db' k).toFinset = if k = id then cats.toFinset else (read db k).toFinset

/-- `Groups.tsx`. -/
def policyEditor : CategoryEditor where
  read := getGroupBlockedCategories
  write := .setGroupPolicy
  remove := .deleteGroup
  read_write h hrun k := by
    rw [policy_run h k hrun, AdminOp.policyWrite]
    split_ifs <;> rfl

/-- `Lists.tsx`. -/
def listEditor : CategoryEditor where
  read := getBlocklistCategories
  write := .setBlocklistCategories
  remove := .deleteBlocklist
  read_write h hrun k := by
    rw [association_run h k hrun, AdminOp.associationWrite]
    split_ifs <;> rfl

/-- A request on its way to the server, with its answer once it is served. -/
inductive RequestState (α : Type*)
  | sent
  /-- `none` is an error, or no answer at all. -/
  | answered (answer : Option α)
  | received
  deriving DecidableEq

/-- `openPolicy`, `openCategories`. -/
structure GetRequest where
  /-- The page that has sent it, of those mounted one after the other. -/
  page : ℕ
  id : ℤ
  state : RequestState (List ℤ)

/-- `savePolicy`, `saveCategories`. -/
structure PutRequest where
  page : ℕ
  id : ℤ
  cats : List ℤ
  state : RequestState Unit
  deriving DecidableEq

/-- `handleDelete`, which remembers what was being edited when it was clicked. -/
structure DeleteRequest where
  page : ℕ
  id : ℤ
  editing : Option ℤ
  state : RequestState Unit

structure EditorPage where
  store : ConfigStore
  page : ℕ
  editing : Option ℤ
  cats : List ℤ
  saving : Bool
  gets : List GetRequest
  puts : List PutRequest
  deletes : List DeleteRequest

inductive PageEvent
  /-- Anybody else changes the tables. -/
  | others (op : StoreOp)
  /-- The user leaves the page, and comes back to a new one. -/
  | mount
  | openPanel (id : ℤ)
  /-- `openDomains` of `Lists.tsx` for a list that has not its panel open. -/
  | openDomains
  | toggle (catID : ℤ)
  | save
  | delete (id : ℤ)
  /-- The server answers a `GET`, with an error or with the rows that it reads before its own
  connection to the database breaks. -/
  | serveGet (i : ℕ) (rows : Option ℕ)
  | receiveGet (i : ℕ)
  /-- The server carries out a `PUT`.  Its transaction overlaps with no other write to the item:
  under `READ COMMITTED` neither of two such transactions sees the rows of the other, and both
  leave theirs. -/
  | servePut (i : ℕ) (passes : Bool)
  | receivePut (i : ℕ)
  | serveDelete (i : ℕ) (passes : Bool)
  | receiveDelete (i : ℕ)

/-- The first page, nothing being edited. -/
def EditorPage.start (store : ConfigStore) : EditorPage where
  store := store
  page := 0
  editing := none
  cats := []
  saving := false
  gets := []
  puts := []
  deletes := []

/-- The categories that are clicked. -/
def clicksOf (es : List PageEvent) : List ℤ :=
  es.filterMap fun
    | .toggle catID => some catID
    | _ => none

section Page

variable [CidrType]

/-- The server runs an operation that is let through. -/
def ConfigStore.runAdmin (s : ConfigStore) (op : AdminOp) (passes : Bool) :
    ConfigStore × Option Unit :=
  if passes then
    match (StoreOp.admin op).execute s with
    | some (s, _) => (s, some ())
    | none => (s, none)
  else (s, none)

/-- One event; one that is not possible does nothing. -/
def PageEvent.apply (editor : CategoryEditor) (s : EditorPage) : PageEvent → EditorPage
  | .others op => { s with store := op.apply s.store }
  | .mount => { s with page := s.page + 1, editing := none, cats := [], saving := false }
  | .openPanel id =>
      if s.editing = some id then { s with editing := none }
      else { s with gets := s.gets ++ [⟨s.page, id, .sent⟩] }
  | .openDomains => { s with editing := none }
  | .toggle catID =>
      if s.editing.isSome then { s with cats := toggleCategory s.cats catID } else s
  | .save =>
      match s.editing, s.saving with
      | some id, false =>
          { s with saving := true, puts := s.puts ++ [⟨s.page, id, s.cats, .sent⟩] }
      | _, _ => s
  | .delete id => { s with deletes := s.deletes ++ [⟨s.page, id, s.editing, .sent⟩] }
  | .serveGet i rows =>
      match s.gets[i]? with
      | some ⟨page, id, .sent⟩ =>
          let answer := rows.map fun n => (editor.read s.store.db id).take n
          { s with gets := s.gets.set i ⟨page, id, .answered answer⟩ }
      | _ => s
  | .receiveGet i =>
      match s.gets[i]? with
      | some ⟨page, id, .answered answer⟩ =>
          let s := { s with gets := s.gets.set i ⟨page, id, .received⟩ }
          match answer with
          | some cats => if page = s.page then { s with cats := cats, editing := some id } else s
          | none => s
      | _ => s
  | .servePut i passes =>
      match s.puts[i]? with
      | some ⟨page, id, cats, .sent⟩ =>
          let (store, answer) := s.store.runAdmin (editor.write id cats) passes
          { s with store := store, puts := s.puts.set i ⟨page, id, cats, .answered answer⟩ }
      | _ => s
  | .receivePut i =>
      match s.puts[i]? with
      | some ⟨page, id, cats, .answered _⟩ =>
          let s := { s with puts := s.puts.set i ⟨page, id, cats, .received⟩ }
          if page = s.page then { s with saving := false } else s
      | _ => s
  | .serveDelete i passes =>
      match s.deletes[i]? with
      | some ⟨page, id, editing, .sent⟩ =>
          let (store, answer) := s.store.runAdmin (editor.remove id) passes
          { s with
            store := store,
            deletes := s.deletes.set i ⟨page, id, editing, .answered answer⟩ }
      | _ => s
  | .receiveDelete i =>
      match s.deletes[i]? with
      | some ⟨page, id, editing, .answered answer⟩ =>
          let s := { s with deletes := s.deletes.set i ⟨page, id, editing, .received⟩ }
          if answer = some () ∧ page = s.page ∧ editing = some id then { s with editing := none }
          else s
      | _ => s

/-! ### Where the contents of a panel come from -/

section Origin

variable (editor : CategoryEditor) (s₀ : EditorPage)

/-- The server has given this answer to a `GET` for the item, with what the tables held then. -/
def Answered (es : List PageEvent) (j : ℕ) (id : ℤ) (cats : List ℤ) : Prop :=
  ∃ pre n post page, es = pre ++ .serveGet j (some n) :: post ∧
    (run (PageEvent.apply editor) s₀ pre).gets[j]? = some ⟨page, id, .sent⟩ ∧
    cats = (editor.read (run (PageEvent.apply editor) s₀ pre).store.db id).take n

/-- It has arrived, the panel of the item has been open since, and these were the clicks in it. -/
def Filled (es : List PageEvent) (id : ℤ) (cats clicks : List ℤ) : Prop :=
  ∃ pre j post, es = pre ++ .receiveGet j :: post ∧ Answered editor s₀ pre j id cats ∧
    (∀ mid, mid <+: post →
      (run (PageEvent.apply editor) s₀ (pre ++ .receiveGet j :: mid)).editing = some id) ∧
    clicks = clicksOf post

/-- Then the panel was saved, which sent the `PUT` of number `i`. -/
def Saved (es : List PageEvent) (i : ℕ) (put : PutRequest) (cats clicks : List ℤ) : Prop :=
  ∃ pre post, es = pre ++ .save :: post ∧
    (run (PageEvent.apply editor) s₀ pre).puts.length = i ∧
    (run (PageEvent.apply editor) s₀ (pre ++ [.save])).puts[i]? = some { put with state := .sent } ∧
    Filled editor s₀ pre put.id cats clicks

variable {editor s₀} {es : List PageEvent} {i j : ℕ} {put : PutRequest} {id : ℤ}
  {cats clicks : List ℤ}

theorem Answered.concat (h : Answered editor s₀ es j id cats) (e : PageEvent) :
    Answered editor s₀ (es ++ [e]) j id cats := by
  obtain ⟨pre, n, post, page, rfl, hget, hcats⟩ := h
  exact ⟨pre, n, post ++ [e], page, by simp, hget, hcats⟩

theorem Filled.concat (h : Filled editor s₀ es id cats clicks) {e : PageEvent}
    (hopen : (run (PageEvent.apply editor) s₀ (es ++ [e])).editing = some id) :
    Filled editor s₀ (es ++ [e]) id cats (clicks ++ clicksOf [e]) := by
  obtain ⟨pre, j, post, rfl, hanswered, hstays, rfl⟩ := h
  refine ⟨pre, j, post ++ [e], by simp, hanswered, fun mid hmid => ?_, ?_⟩
  · rcases List.prefix_concat_iff.1 hmid with rfl | hmid
    · simpa using hopen
    · exact hstays mid hmid
  · rw [clicksOf, clicksOf, clicksOf, List.filterMap_append]

theorem Saved.concat (h : Saved editor s₀ es i put cats clicks) (e : PageEvent) :
    Saved editor s₀ (es ++ [e]) i put cats clicks := by
  obtain ⟨pre, post, rfl, hlength, hput, hfilled⟩ := h
  exact ⟨pre, post ++ [e], by simp, hlength, hput, hfilled⟩

variable (editor s₀)

/-- What is on its way to a panel, what it shows and what was saved comes from an answer of the
server and the clicks since. -/
structure Origins (es : List PageEvent) (s : EditorPage) : Prop where
  intact : s.store.Intact
  gets : ∀ (j page : ℕ) (id : ℤ) (cats : List ℤ),
    s.gets[j]? = some ⟨page, id, .answered (some cats)⟩ → Answered editor s₀ es j id cats
  panel : ∀ id, s.editing = some id → ∃ cats clicks, Filled editor s₀ es id cats clicks ∧
    s.cats = clicks.foldl toggleCategory cats
  puts : ∀ (i : ℕ) (put : PutRequest), s.puts[i]? = some put →
    ∃ cats clicks, Saved editor s₀ es i put cats clicks ∧
      put.cats = clicks.foldl toggleCategory cats

variable {editor s₀} {s s' : EditorPage}

theorem Origins.gets_concat (h : Origins editor s₀ es s) (e : PageEvent) (j page : ℕ) (id : ℤ)
    (cats : List ℤ) (hget : s.gets[j]? = some ⟨page, id, .answered (some cats)⟩) :
    Answered editor s₀ (es ++ [e]) j id cats := (h.gets j page id cats hget).concat e

theorem Origins.puts_concat (h : Origins editor s₀ es s) (e : PageEvent) (i : ℕ)
    (put : PutRequest) (hput : s.puts[i]? = some put) :
    ∃ cats clicks, Saved editor s₀ (es ++ [e]) i put cats clicks ∧
      put.cats = clicks.foldl toggleCategory cats := by
  obtain ⟨cats, clicks, hsaved, hcats⟩ := h.puts i put hput
  exact ⟨cats, clicks, hsaved.concat e, hcats⟩

theorem Origins.panel_concat (h : Origins editor s₀ es s) {e : PageEvent}
    (hopen : (run (PageEvent.apply editor) s₀ (es ++ [e])).editing = s'.editing)
    (hpanel : s'.editing = none ∨
      s'.editing = s.editing ∧ s'.cats = (clicksOf [e]).foldl toggleCategory s.cats)
    (id : ℤ) (hid : s'.editing = some id) :
    ∃ cats clicks, Filled editor s₀ (es ++ [e]) id cats clicks ∧
      s'.cats = clicks.foldl toggleCategory cats := by
  rcases hpanel with hnone | ⟨hediting, hcats⟩
  · rw [hnone] at hid
    cases hid
  · obtain ⟨cats, clicks, hfilled, heq⟩ := h.panel id (hediting ▸ hid)
    exact ⟨cats, _, hfilled.concat (hopen.trans hid), by rw [hcats, heq, List.foldl_append]⟩

/-- An event that answers no `GET`, fills no panel and saves none. -/
theorem Origins.frame (h : Origins editor s₀ es s) {e : PageEvent}
    (hopen : (run (PageEvent.apply editor) s₀ (es ++ [e])).editing = s'.editing)
    (hintact : s'.store.Intact)
    (hgets : ∀ (j page : ℕ) (id : ℤ) (cats : List ℤ),
      s'.gets[j]? = some ⟨page, id, .answered (some cats)⟩ →
        s.gets[j]? = some ⟨page, id, .answered (some cats)⟩)
    (hpanel : s'.editing = none ∨
      s'.editing = s.editing ∧ s'.cats = (clicksOf [e]).foldl toggleCategory s.cats)
    (hputs : ∀ (i : ℕ) (put' : PutRequest), s'.puts[i]? = some put' →
      ∃ put : PutRequest, s.puts[i]? = some put ∧ put' = { put with state := put'.state }) :
    Origins editor s₀ (es ++ [e]) s' where
  intact := hintact
  gets j page id cats hget := h.gets_concat e j page id cats (hgets j page id cats hget)
  panel := h.panel_concat hopen hpanel
  puts i put' hput' := by
    obtain ⟨put, hput, hsame⟩ := hputs i put' hput'
    obtain ⟨cats, clicks, hsaved, hcats⟩ := h.puts_concat e i put hput
    rw [hsame]
    exact ⟨cats, clicks, hsaved, hcats⟩

theorem ConfigStore.runAdmin_intact {s : ConfigStore} (h : s.Intact) (op : AdminOp)
    (passes : Bool) : (s.runAdmin op passes).1.Intact := by
  have happly := (StoreOp.intact_apply h (.admin op)).1
  unfold ConfigStore.runAdmin
  split_ifs
  · cases hexec : (StoreOp.admin op).execute s with
    | none => exact h
    | some r =>
      rw [StoreOp.apply, hexec] at happly
      exact happly
  · exact h

omit [CidrType] in
theorem getElem?_concat {α : Type*} {l : List α} {a b : α} {i : ℕ}
    (h : (l ++ [a])[i]? = some b) : l[i]? = some b ∨ b = a := by
  rw [List.getElem?_append] at h
  split_ifs at h with hi
  · exact .inl h
  · exact .inr (List.mem_singleton.1 (List.mem_of_getElem? h))

omit [CidrType] in
/-- A request that is changed in place, and is no answer to a `GET` afterwards. -/
theorem getElem?_set_answered {gets : List GetRequest} {i j page page' : ℕ} {id id' : ℤ}
    {cats : List ℤ} {state : RequestState (List ℤ)} (hstate : state ≠ .answered (some cats))
    (h : (gets.set i ⟨page, id, state⟩)[j]? = some ⟨page', id', .answered (some cats)⟩) :
    gets[j]? = some ⟨page', id', .answered (some cats)⟩ := by
  rw [List.getElem?_set] at h
  split_ifs at h with hij
  · simp only [Option.some.injEq, GetRequest.mk.injEq] at h
    exact absurd h.2.2 hstate
  · exact h

omit [CidrType] in
/-- What a `PUT` carries does not change on its way. -/
theorem getElem?_set_put {puts : List PutRequest} {i j : ℕ} {page : ℕ} {id : ℤ} {cats : List ℤ}
    {state state' : RequestState Unit} {put' : PutRequest}
    (hi : puts[i]? = some ⟨page, id, cats, state⟩)
    (h : (puts.set i ⟨page, id, cats, state'⟩)[j]? = some put') :
    ∃ put : PutRequest, puts[j]? = some put ∧ put' = { put with state := put'.state } := by
  rw [List.getElem?_set] at h
  split_ifs at h with hij
  · obtain rfl := Option.some.inj h
    exact ⟨⟨page, id, cats, state⟩, hij ▸ hi, rfl⟩
  · exact ⟨put', h, rfl⟩

/-- An event that changes no request for categories. -/
theorem Origins.same (h : Origins editor s₀ es s) {e : PageEvent}
    (hopen : (run (PageEvent.apply editor) s₀ (es ++ [e])).editing = s'.editing)
    (hintact : s'.store.Intact) (hgets : s'.gets = s.gets) (hputs : s'.puts = s.puts)
    (hpanel : s'.editing = none ∨
      s'.editing = s.editing ∧ s'.cats = (clicksOf [e]).foldl toggleCategory s.cats) :
    Origins editor s₀ (es ++ [e]) s' := by
  refine h.frame hopen hintact (fun j page id cats hget => ?_) hpanel fun i put hput => ?_
  · rwa [hgets] at hget
  · rw [hputs] at hput
    exact ⟨put, hput, rfl⟩

/-- What is saved is what the panel shows. -/
theorem Origins.save (h : Origins editor s₀ es s) (hs : run (PageEvent.apply editor) s₀ es = s)
    (hopen : (run (PageEvent.apply editor) s₀ (es ++ [.save])).editing =
      (PageEvent.save.apply editor s).editing) :
    Origins editor s₀ (es ++ [.save]) (PageEvent.save.apply editor s) := by
  generalize hnew : PageEvent.save.apply editor s = s' at hopen ⊢
  have hrun : run (PageEvent.apply editor) s₀ (es ++ [.save]) = s' := by rw [run_concat, hs, hnew]
  rw [PageEvent.apply] at hnew
  split at hnew <;> subst hnew
  · rename_i id hediting hsaving
    refine ⟨h.intact, h.gets_concat _, h.panel_concat hopen (.inr ⟨rfl, rfl⟩), fun i put hput => ?_⟩
    have hlast : i < s.puts.length ∨ i = s.puts.length := by
      have hi := (List.getElem?_eq_some_iff.1 hput).1
      rw [List.length_append, List.length_singleton] at hi
      omega
    rcases hlast with hi | rfl
    · exact h.puts_concat _ i put ((List.getElem?_append_left hi).symm.trans hput)
    · -- the `PUT` of this save
      obtain ⟨cats, clicks, hfilled, hcats⟩ := h.panel id hediting
      obtain rfl := Option.some.inj (List.getElem?_concat_length.symm.trans hput)
      exact ⟨cats, clicks, ⟨es, [], rfl, by rw [hs], by rw [hrun]; exact hput, hfilled⟩, hcats⟩
  · exact h.same hopen h.intact rfl rfl (.inr ⟨rfl, rfl⟩)

theorem Origins.serveGet (h : Origins editor s₀ es s)
    (hs : run (PageEvent.apply editor) s₀ es = s) (i : ℕ) (rows : Option ℕ)
    (hopen : (run (PageEvent.apply editor) s₀ (es ++ [.serveGet i rows])).editing =
      ((PageEvent.serveGet i rows).apply editor s).editing) :
    Origins editor s₀ (es ++ [.serveGet i rows]) ((PageEvent.serveGet i rows).apply editor s) := by
  generalize hnew : (PageEvent.serveGet i rows).apply editor s = s' at hopen ⊢
  rw [PageEvent.apply] at hnew
  split at hnew <;> subst hnew
  · rename_i page id hget
    refine ⟨h.intact, fun j page' id' cats hget' => ?_, h.panel_concat hopen (.inr ⟨rfl, rfl⟩),
      h.puts_concat _⟩
    rw [List.getElem?_set] at hget'
    split_ifs at hget' with hij
    · subst hij
      simp only [Option.some.injEq, GetRequest.mk.injEq, RequestState.answered.injEq,
        Option.map_eq_some_iff] at hget'
      obtain ⟨rfl, rfl, n, rfl, rfl⟩ := hget'
      exact ⟨es, n, [], page, rfl, hs ▸ hget, hs ▸ rfl⟩
    · exact h.gets_concat _ j page' id' cats hget'
  · exact h.same hopen h.intact rfl rfl (.inr ⟨rfl, rfl⟩)

/-- An answer that arrives fills the panel. -/
theorem Origins.receiveGet (h : Origins editor s₀ es s) (i : ℕ)
    (hopen : (run (PageEvent.apply editor) s₀ (es ++ [.receiveGet i])).editing =
      ((PageEvent.receiveGet i).apply editor s).editing) :
    Origins editor s₀ (es ++ [.receiveGet i]) ((PageEvent.receiveGet i).apply editor s) := by
  generalize hnew : (PageEvent.receiveGet i).apply editor s = s' at hopen ⊢
  rw [PageEvent.apply] at hnew
  split at hnew
  · rename_i page id answer hget
    have hset : ∀ (j page' : ℕ) (id' : ℤ) (cats : List ℤ),
        (s.gets.set i ⟨page, id, .received⟩)[j]? = some ⟨page', id', .answered (some cats)⟩ →
          s.gets[j]? = some ⟨page', id', .answered (some cats)⟩ :=
      fun _ _ _ _ => getElem?_set_answered (by simp)
    have hputs : ∀ (i : ℕ) (put' : PutRequest), s.puts[i]? = some put' →
        ∃ put : PutRequest, s.puts[i]? = some put ∧ put' = { put with state := put'.state } :=
      fun i put hput => ⟨put, hput, rfl⟩
    split at hnew
    · rename_i cats
      dsimp only at hnew
      split_ifs at hnew <;> subst hnew
      · refine ⟨h.intact, fun j page' id' cats' hget' => h.gets_concat _ j page' id' cats'
          (hset j page' id' cats' hget'), fun id' hid' => ?_, h.puts_concat _⟩
        obtain rfl := Option.some.inj hid'
        refine ⟨cats, [], ⟨es, i, [], rfl, h.gets i page id cats hget, fun mid hmid => ?_, rfl⟩,
          rfl⟩
        rw [List.prefix_nil.1 hmid]
        exact hopen
      · exact h.frame hopen h.intact hset (.inr ⟨rfl, rfl⟩) hputs
    · subst hnew
      exact h.frame hopen h.intact hset (.inr ⟨rfl, rfl⟩) hputs
  · subst hnew
    exact h.same hopen h.intact rfl rfl (.inr ⟨rfl, rfl⟩)

theorem Origins.apply (h : Origins editor s₀ es (run (PageEvent.apply editor) s₀ es))
    (e : PageEvent) :
    Origins editor s₀ (es ++ [e]) (e.apply editor (run (PageEvent.apply editor) s₀ es)) := by
  have hopen : (run (PageEvent.apply editor) s₀ (es ++ [e])).editing =
      (e.apply editor (run (PageEvent.apply editor) s₀ es)).editing := by rw [run_concat]
  generalize hs : run (PageEvent.apply editor) s₀ es = s at h hopen ⊢
  cases e with
  | save => exact h.save hs hopen
  | serveGet i rows => exact h.serveGet hs i rows hopen
  | receiveGet i => exact h.receiveGet i hopen
  | others op =>
    exact h.same hopen (StoreOp.intact_apply h.intact op).1 rfl rfl (.inr ⟨rfl, rfl⟩)
  | mount | openDomains => exact h.same hopen h.intact rfl rfl (.inl rfl)
  | delete id => exact h.same hopen h.intact rfl rfl (.inr ⟨rfl, rfl⟩)
  | openPanel id =>
    generalize hnew : (PageEvent.openPanel id).apply editor s = s' at hopen ⊢
    rw [PageEvent.apply] at hnew
    split_ifs at hnew <;> subst hnew
    · exact h.same hopen h.intact rfl rfl (.inl rfl)
    · refine h.frame hopen h.intact (fun j page id' cats hget => ?_) (.inr ⟨rfl, rfl⟩)
        fun i put hput => ⟨put, hput, rfl⟩
      rcases getElem?_concat hget with hget | hlast
      · exact hget
      · cases hlast
  | toggle catID =>
    generalize hnew : (PageEvent.toggle catID).apply editor s = s' at hopen ⊢
    rw [PageEvent.apply] at hnew
    split_ifs at hnew with hisSome <;> subst hnew
    · exact h.same hopen h.intact rfl rfl (.inr ⟨rfl, rfl⟩)
    · exact h.same hopen h.intact rfl rfl (.inl (by simpa using hisSome))
  | servePut i passes =>
    generalize hnew : (PageEvent.servePut i passes).apply editor s = s' at hopen ⊢
    simp only [PageEvent.apply] at hnew
    split at hnew <;> subst hnew
    · rename_i page id cats hput
      exact h.frame hopen (ConfigStore.runAdmin_intact h.intact _ _) (fun _ _ _ _ hget => hget)
        (.inr ⟨rfl, rfl⟩) fun j put' => getElem?_set_put hput
    · exact h.same hopen h.intact rfl rfl (.inr ⟨rfl, rfl⟩)
  | receivePut i =>
    generalize hnew : (PageEvent.receivePut i).apply editor s = s' at hopen ⊢
    simp only [PageEvent.apply] at hnew
    split at hnew
    · rename_i page id cats answer hput
      split_ifs at hnew <;> subst hnew <;> exact h.frame hopen h.intact
        (fun _ _ _ _ hget => hget) (.inr ⟨rfl, rfl⟩) fun j put' => getElem?_set_put hput
    · subst hnew
      exact h.same hopen h.intact rfl rfl (.inr ⟨rfl, rfl⟩)
  | serveDelete i passes =>
    generalize hnew : (PageEvent.serveDelete i passes).apply editor s = s' at hopen ⊢
    simp only [PageEvent.apply] at hnew
    split at hnew <;> subst hnew
    · exact h.same hopen (ConfigStore.runAdmin_intact h.intact _ _) rfl rfl (.inr ⟨rfl, rfl⟩)
    · exact h.same hopen h.intact rfl rfl (.inr ⟨rfl, rfl⟩)
  | receiveDelete i =>
    generalize hnew : (PageEvent.receiveDelete i).apply editor s = s' at hopen ⊢
    simp only [PageEvent.apply] at hnew
    split at hnew
    · split_ifs at hnew <;> subst hnew
      · exact h.same hopen h.intact rfl rfl (.inl rfl)
      · exact h.same hopen h.intact rfl rfl (.inr ⟨rfl, rfl⟩)
    · subst hnew
      exact h.same hopen h.intact rfl rfl (.inr ⟨rfl, rfl⟩)

theorem origins_start {store : ConfigStore} (h : store.Intact) :
    Origins editor (.start store) [] (.start store) :=
  ⟨h, by simp [EditorPage.start], by simp [EditorPage.start], by simp [EditorPage.start]⟩

theorem origins_run (editor : CategoryEditor) {store : ConfigStore} (h : store.Intact)
    (es : List PageEvent) :
    Origins editor (.start store) es (run (PageEvent.apply editor) (.start store) es) :=
  trace_invariant (Origins editor (.start store)) (origins_start h) (fun _ e h => h.apply e) es

/-- **A `PUT` that the server carries out leaves what the server has once answered for the same
item, to this page or an earlier one, changed by the clicks between the arrival of that answer
and the save that sent the `PUT`; other items keep their categories.  It does what the clicks say,
and nothing else, exactly if the categories have not changed since that answer and the answer was
complete.** -/
theorem save_applies_clicks (editor : CategoryEditor) {store : ConfigStore} (h : store.Intact)
    (es : List PageEvent) (i : ℕ) (put : PutRequest) (r : Database × List Table) :
    let s := run (PageEvent.apply editor) (.start store) es
    let s' := (PageEvent.servePut i true).apply editor s
    s.puts[i]? = some put → put.state = .sent →
      (editor.write put.id put.cats).run s.store.db = some r →
      ∃ cats clicks, Saved editor (.start store) es i put cats clicks ∧
        (editor.read s'.store.db put.id).toFinset = symmDiff cats.toFinset (flips clicks) ∧
        (∀ id ≠ put.id,
          (editor.read s'.store.db id).toFinset = (editor.read s.store.db id).toFinset) ∧
        ((editor.read s'.store.db put.id).toFinset =
            symmDiff (editor.read s.store.db put.id).toFinset (flips clicks) ↔
          (editor.read s.store.db put.id).toFinset = cats.toFinset) := by
  intro s s' hput hsent hwrite
  have horigins := origins_run editor h es
  obtain ⟨cats, clicks, hsaved, hcats⟩ := horigins.puts i put hput
  have hdb : s'.store.db = r.1 := by
    obtain ⟨page, id, cats, state⟩ := put
    subst hsent
    simp only [s', PageEvent.apply, hput, ConfigStore.runAdmin, StoreOp.execute, hwrite, if_true,
      Option.map_some]
  have hread := editor.read_write horigins.intact.tables hwrite
  have hafter : (editor.read s'.store.db put.id).toFinset =
      symmDiff cats.toFinset (flips clicks) := by
    rw [hdb, hread put.id, if_pos rfl, hcats, toFinset_foldl_toggleCategory]
  refine ⟨cats, clicks, hsaved, hafter, fun id hid => ?_, ?_⟩
  · rw [hdb, hread id, if_neg hid]
  · rw [hafter, symmDiff_left_inj, eq_comm]

end Origin

end Page

/-- Category 4 is ticked in the panel of the default group and saved.  While the panel stays open,
somebody else blocks category 5 instead; category 3 is ticked, too, and saved. -/
def overtakenSave : List PageEvent :=
  [.openPanel 1, .serveGet 0 (some 10), .receiveGet 0, .toggle 4, .save, .servePut 0 true,
    .receivePut 0, .toggle 3, .others (.admin (.setGroupPolicy 1 [5])), .save]

/-- Category 5 is no longer blocked. -/
theorem save_overtaken :
    letI := plainCidr
    let apply := PageEvent.apply policyEditor
    let db := (run apply (.start .migrated) overtakenSave).store.db
    let db' := (run apply (.start .migrated) (overtakenSave ++ [.servePut 1 true])).store.db
    getGroupBlockedCategories db 1 = [5] ∧ getGroupBlockedCategories db' 1 = [4, 3] ∧
      ∃ cats clicks,
        Saved policyEditor (.start .migrated) overtakenSave 1 ⟨0, 1, [4, 3], .sent⟩ cats clicks ∧
          (getGroupBlockedCategories db' 1).toFinset = symmDiff cats.toFinset (flips clicks) := by
  refine ⟨by decide +kernel, by decide +kernel, ?_⟩
  obtain ⟨r, hr⟩ : ∃ r, (policyEditor.write 1 [4, 3]).run
      (run (@PageEvent.apply plainCidr policyEditor) (.start .migrated) overtakenSave).store.db =
        some r := Option.isSome_iff_exists.1 (by decide +kernel)
  obtain ⟨cats, clicks, hsaved, hafter, -, -⟩ := @save_applies_clicks plainCidr policyEditor _
    migrated_intact overtakenSave 1 ⟨0, 1, [4, 3], .sent⟩ r (by decide +kernel) rfl hr
  rw [run_concat]
  exact ⟨cats, clicks, hsaved, hafter⟩

end DnsFilter
