import DnsFilter.Reload.Convergence

/-!
# Outages of the listener

`Listener` of `internal/store/notify.go` beside `main`: `main` loads the lists, starts the
listener and goes on to load the categories and the policies, while the listener subscribes,
loses its connection and reconnects.  Notifications go to a subscribed listener only, and
nothing is loaded when it subscribes.

* `Loading`: where `main`, or the callback, is in its three loads, each of them a query and the
  change of the memory that follows it;
* `Tracks`: a load of a part is due, or the memory has, or is about to get, what the database
  has;
* `no_change_lost_iff`: along which runs no change is lost.
-/

namespace DnsFilter

open Blacklist Engine EventRun

/-- The parts of the memory, in the order in which they are loaded. -/
inductive Part
  | lists
  | categories
  | policies
  deriving DecidableEq

def Part.rank : Part → ℕ
  | lists => 0
  | categories => 1
  | policies => 2

/-- Where a sequence of loads is.  What a query returned is a function of the database that it
saw. -/
inductive Loading
  | idle
  | read (p : Part)
  | apply (p : Part) (seen : Database)
  deriving DecidableEq

def Part.next : Part → Loading
  | lists => .read .categories
  | categories => .read .policies
  | policies => .idle

/-- The query of the part is still to come. -/
def Loading.WillRead (p : Part) : Loading → Prop
  | idle => False
  | read p' => p'.rank ≤ p.rank
  | apply p' _ => p'.rank < p.rank

/-- The part is still to be changed. -/
def Loading.WillApply (p : Part) : Loading → Prop
  | idle => False
  | read p' => p'.rank ≤ p.rank
  | apply p' _ => p'.rank ≤ p.rank

/-- `main` has not yet started the listener. -/
def Loading.beforeListener : Loading → Bool
  | read .lists | apply .lists _ => true
  | _ => false

theorem willRead_next {p p' : Part} : p.next.WillRead p' ↔ p.rank < p'.rank := by
  cases p <;> cases p' <;> simp [Part.next, Loading.WillRead, Part.rank]

theorem willApply_next {p p' : Part} : p.next.WillApply p' ↔ p.rank < p'.rank := by
  cases p <;> cases p' <;> simp [Part.next, Loading.WillApply, Part.rank]

theorem next_ne_apply (p p' : Part) (seen : Database) : p.next ≠ .apply p' seen := by
  cases p <;> simp [Part.next]

theorem rank_lt_iff {p p' : Part} (h : p' ≠ p) : p.rank < p'.rank ↔ p.rank ≤ p'.rank := by
  cases p <;> cases p' <;> first | exact absurd rfl h | decide

/-- A process, its database and the connection of its listener. -/
structure Service where
  db : Database
  engine : Engine
  /-- The connection of the listener has executed `LISTEN`. -/
  subscribed : Bool
  /-- Notifications that were sent to the listener and not yet taken by it. -/
  pending : List Table
  main : Loading
  callback : Loading

inductive ServiceEvent
  /-- A committed change of a table that has a trigger. -/
  | change (db : Database) (table : Table) (trigger : table.hasTrigger)
  | subscribe
  /-- The connection is lost; the first notifications may already have been received. -/
  | lose (kept : ℕ)
  | deliver
  /-- The next step of `main`; `order` is the order in which a loaded map is ranged over. -/
  | main (order : List (Σ _ : ℤ, List GoString))
  | callback (order : List (Σ _ : ℤ, List GoString))

/-- The listener is subscribed, whatever was delivered to it has been handled, and `main` has
finished its own loads. -/
def Service.Settled (s : Service) : Prop :=
  s.subscribed ∧ s.pending = [] ∧ s.callback = .idle ∧ s.main = .idle

instance (s : Service) : Decidable s.Settled := inferInstanceAs (Decidable (_ ∧ _))

/-- A process before its first query. -/
def Service.boot (db : Database) : Service :=
  ⟨db, Engine.new new new, false, [], .read .lists, .idle⟩

section Outage

variable [Unicode] {files : ListFiles}

/-- Put what a query returned into the memory.  The lists of `main` are new, so that clearing
them as the callback does changes nothing. -/
def Part.load (files : ListFiles) (order : List (Σ _ : ℤ, List GoString)) (seen : Database)
    (e : Engine) : Part → Engine
  | lists => (e.replaceLists seen.loadActiveBlocklistEntries).loadListFiles files
  | categories => e.loadCategories order
  | policies => e.loadPolicies seen.loadGroupPolicies

/-- One step of a sequence of loads.  A map is ranged over in one of its orders. -/
def Loading.step (files : ListFiles) (db : Database) (order : List (Σ _ : ℤ, List GoString))
    (e : Engine) : Loading → Engine × Loading
  | idle => (e, .idle)
  | read p => (e, .apply p db)
  | apply p seen =>
      if p = .categories → Enumerates order seen.loadCategoryDomains then
        (p.load files order seen e, p.next)
      else (e, .apply p seen)

/-- One event; an event that is not possible does nothing. -/
def ServiceEvent.apply (files : ListFiles) (s : Service) : ServiceEvent → Service
  | .change db table _ =>
      { s with db := db, pending := if s.subscribed then s.pending ++ [table] else s.pending }
  | .subscribe =>
      if s.main.beforeListener = false ∧ s.pending = [] ∧ s.callback = .idle then
        { s with subscribed := true }
      else s
  | .lose kept =>
      if s.subscribed then { s with subscribed := false, pending := s.pending.take kept } else s
  | .deliver =>
      match s.callback, s.pending with
      | .idle, _ :: pending => { s with pending := pending, callback := .read .lists }
      | _, _ => s
  | .main order =>
      let (engine, loading) := s.main.step files s.db order s.engine
      { s with engine := engine, main := loading }
  | .callback order =>
      let (engine, loading) := s.callback.step files s.db order s.engine
      { s with engine := engine, callback := loading }

/-- Undisturbed, `main` performs the loads of a process start. -/
theorem run_main (files : ListFiles) (db : Database) {order : List (Σ _ : ℤ, List GoString)}
    (horder : Enumerates order db.loadCategoryDomains) :
    run (ServiceEvent.apply files) (.boot db) (List.replicate 6 (.main order)) =
      { Service.boot db with
        engine := startup files (some db.loadActiveBlocklistEntries) (some order)
          (some db.loadGroupPolicies)
        main := .idle } := by
  simp [List.replicate, ServiceEvent.apply, Service.boot, Loading.step, Part.next, Part.load,
    horder]
  rfl

/-- Undisturbed, the callback performs its three loads. -/
theorem run_notifyCallback (files : ListFiles) {s : Service} (hs : s.callback = .read .lists)
    {order : List (Σ _ : ℤ, List GoString)} (horder : Enumerates order s.db.loadCategoryDomains) :
    run (ServiceEvent.apply files) s (List.replicate 6 (.callback order)) =
      { s with
        engine := notifyCallback s.engine files (some s.db.loadActiveBlocklistEntries)
          (some order) (some s.db.loadGroupPolicies)
        callback := .idle } := by
  simp [List.replicate, ServiceEvent.apply, Loading.step, Part.next, Part.load, horder, hs]
  rfl

/-! ### What is due -/

/-- The memory has what a load of the part from the database would give. -/
def Part.Current (files : ListFiles) (db : Database) (e : Engine) : Part → Prop
  | lists => (e.blacklist.domains, e.whitelist.domains) = loadedLists files db
  | categories => e.domainCategories ∈ categoryMaps db
  | policies => e.groupPolicies = db.loadGroupPolicies

/-- Whatever is loaded from the database `seen` could have been loaded from `db`. -/
def Part.Fits (files : ListFiles) (seen db : Database) : Part → Prop
  | lists => loadedLists files seen = loadedLists files db
  | categories => categoryMaps seen ⊆ categoryMaps db
  | policies => seen.loadGroupPolicies = db.loadGroupPolicies

/-- The callback is still to query the part; or what it has read fits the database `db`, or, if
it has read nothing, `main` is still to load the part or the memory has it from `db`. -/
def UpToDate (files : ListFiles) (db : Database) (s : Service) (p : Part) : Prop :=
  s.callback.WillRead p ∨
    (∀ seen, s.callback = .apply p seen → p.Fits files seen db) ∧
      ((∃ seen, s.callback = .apply p seen) ∨ s.main.WillApply p ∨ p.Current files db s.engine)

/-- What `main` has read and not yet put into the memory fits the database `db`. -/
def MainFits (files : ListFiles) (db : Database) (s : Service) : Prop :=
  ∀ p seen, s.main = .apply p seen → p.Fits files seen db

/-- Whatever happens next, the memory will have what the database has. -/
structure TracksParts (files : ListFiles) (s : Service) : Prop where
  main : MainFits files s.db s
  parts : s.pending ≠ [] ∨ ∀ p, UpToDate files s.db s p

/-- No change is missed: it fits what `main` has read already, and a change that is not notified,
or whose notification is lost, alters nothing that will not be loaded again. -/
def NothingMissed (files : ListFiles) (s : Service) : ServiceEvent → Prop
  | .change db _ _ =>
      MainFits files db s ∧ (s.subscribed ∨ s.pending ≠ [] ∨ ∀ p, UpToDate files db s p)
  | .lose kept => s.subscribed → s.pending.take kept ≠ [] ∨ ∀ p, UpToDate files s.db s p
  | _ => True

/-! ### Loads -/

theorem Part.Fits.refl (db : Database) (p : Part) : p.Fits files db db := by
  cases p
  · exact rfl
  · exact subset_rfl
  · exact rfl

/-- A load makes its part current. -/
theorem current_load {p : Part} {seen db : Database} {order : List (Σ _ : ℤ, List GoString)}
    (hfits : p.Fits files seen db)
    (horder : p = .categories → Enumerates order seen.loadCategoryDomains) (e : Engine) :
    p.Current files db (p.load files order seen e) := by
  cases p with
  | lists =>
    refine Eq.trans ?_ hfits
    simp [Part.load, Engine.replaceLists, Engine.loadListFiles, loadedLists]
  | categories => exact hfits ⟨order, horder rfl, rfl⟩
  | policies => exact hfits

/-- A load changes no other part. -/
theorem current_load_of_ne {p p' : Part} (h : p' ≠ p) {seen db : Database}
    {order : List (Σ _ : ℤ, List GoString)} {e : Engine} :
    p'.Current files db (p.load files order seen e) ↔ p'.Current files db e := by
  cases p <;> cases p' <;> first | exact absurd rfl h | exact Iff.rfl

theorem freshlyLoaded_iff_current {db : Database} {e : Engine} :
    FreshlyLoaded files db e ↔ ∀ p : Part, p.Current files db e := by
  rw [freshlyLoaded_iff]
  constructor
  · rintro ⟨hl, hc, hp⟩ p
    cases p
    · exact hl
    · exact hc
    · exact hp
  · exact fun h => ⟨h .lists, h .categories, h .policies⟩

/-- Settled, a process that tracks its database has loaded it. -/
theorem TracksParts.freshlyLoaded {s : Service} (h : TracksParts files s) (hs : s.Settled) :
    FreshlyLoaded files s.db s.engine := by
  obtain ⟨-, hpending, hcallback, hmain⟩ := hs
  refine freshlyLoaded_iff_current.2 fun p => ?_
  have hup := h.parts.resolve_left (not_not.2 hpending) p
  simpa [UpToDate, hcallback, hmain, Loading.WillRead, Loading.WillApply] using hup

/-- What one step of a sequence of loads does. -/
theorem Loading.step_cases (files : ListFiles) (db : Database)
    (order : List (Σ _ : ℤ, List GoString)) (e : Engine) (l : Loading) :
    l.step files db order e = (e, l) ∨
      (∃ p, l = .read p ∧ l.step files db order e = (e, .apply p db)) ∨
      ∃ p seen, l = .apply p seen ∧
        (p = .categories → Enumerates order seen.loadCategoryDomains) ∧
          l.step files db order e = (p.load files order seen e, p.next) := by
  cases l with
  | idle => exact .inl rfl
  | read p => exact .inr (.inl ⟨p, rfl, rfl⟩)
  | apply p seen =>
    by_cases horder : p = .categories → Enumerates order seen.loadCategoryDomains
    · exact .inr (.inr ⟨p, seen, rfl, horder, if_pos horder⟩)
    · exact .inl (if_neg horder)

theorem tracksParts_main {s : Service} (h : TracksParts files s)
    (order : List (Σ _ : ℤ, List GoString)) :
    TracksParts files (ServiceEvent.apply files s (.main order)) := by
  obtain ⟨hmain, hparts⟩ := h
  simp only [ServiceEvent.apply]
  rcases s.main.step_cases files s.db order s.engine with
    hstep | ⟨p, hp, hstep⟩ | ⟨p, seen, hp, horder, hstep⟩
  · rw [hstep]
    exact ⟨hmain, hparts⟩
  · rw [hstep]
    refine ⟨fun p' seen heq => ?_, hparts.imp_right fun hup p' => ?_⟩
    · obtain ⟨rfl, rfl⟩ := Loading.apply.inj heq
      exact Part.Fits.refl ..
    · have hsame : s.main.WillApply p' → (Loading.apply p s.db).WillApply p' := by
        rw [hp]
        exact id
      exact (hup p').imp_right fun ⟨hheld, hrest⟩ => ⟨hheld, hrest.imp_right (.imp_left hsame)⟩
  · rw [hstep]
    refine ⟨fun p' seen' heq => (next_ne_apply _ _ _ heq).elim, hparts.imp_right fun hup p' => ?_⟩
    refine (hup p').imp_right fun ⟨hheld, hrest⟩ => ⟨hheld, hrest.imp_right fun hrest => ?_⟩
    by_cases hpp : p' = p
    · subst hpp
      exact .inr (current_load (hmain _ _ hp) horder s.engine)
    · rw [hp] at hrest
      refine hrest.imp (fun hdue => ?_) (current_load_of_ne hpp).2
      exact willApply_next.2 ((rank_lt_iff hpp).2 hdue)

theorem tracksParts_callback {s : Service} (h : TracksParts files s)
    (order : List (Σ _ : ℤ, List GoString)) :
    TracksParts files (ServiceEvent.apply files s (.callback order)) := by
  obtain ⟨hmain, hparts⟩ := h
  simp only [ServiceEvent.apply]
  rcases s.callback.step_cases files s.db order s.engine with
    hstep | ⟨p, hp, hstep⟩ | ⟨p, seen, hp, horder, hstep⟩
  · rw [hstep]
    exact ⟨hmain, hparts⟩
  · rw [hstep]
    refine ⟨hmain, hparts.imp_right fun hup p' => ?_⟩
    by_cases hpp : p' = p
    · subst hpp
      refine .inr ⟨fun seen heq => ?_, .inl ⟨_, rfl⟩⟩
      obtain ⟨-, rfl⟩ := Loading.apply.inj heq
      exact Part.Fits.refl ..
    · rcases hup p' with hread | ⟨-, hrest⟩
      · rw [hp] at hread
        exact .inl ((rank_lt_iff hpp).2 hread)
      · refine .inr ⟨fun seen heq => absurd (Loading.apply.inj heq).1.symm hpp, .inr ?_⟩
        exact hrest.resolve_left (by simp [hp])
  · rw [hstep]
    refine ⟨hmain, hparts.imp_right fun hup p' => ?_⟩
    rcases hup p' with hread | ⟨hheld, hrest⟩
    · rw [hp] at hread
      exact .inl (willRead_next.2 hread)
    · refine .inr ⟨fun seen' heq => (next_ne_apply _ _ _ heq).elim, .inr ?_⟩
      by_cases hpp : p' = p
      · subst hpp
        exact .inr (current_load (hheld _ hp) horder s.engine)
      · have hother : ¬ ∃ seen', s.callback = .apply p' seen' := by
          rw [hp]
          rintro ⟨seen', heq⟩
          exact hpp (Loading.apply.inj heq).1.symm
        exact (hrest.resolve_left hother).imp_right (current_load_of_ne hpp).2

/-- One event keeps track of the database exactly when it misses nothing. -/
theorem tracksParts_apply (s : Service) (e : ServiceEvent) (h : TracksParts files s) :
    TracksParts files (ServiceEvent.apply files s e) ↔ NothingMissed files s e := by
  cases e with
  | change db table trigger =>
    simp only [ServiceEvent.apply, NothingMissed]
    constructor
    · rintro ⟨hmain, hparts⟩
      refine ⟨hmain, or_iff_not_imp_left.2 fun hsub => ?_⟩
      simp only [hsub] at hparts
      exact hparts
    · rintro ⟨hmain, hparts⟩
      refine ⟨hmain, ?_⟩
      by_cases hsub : s.subscribed
      · exact .inl (by simp [hsub])
      · simp only [hsub]
        exact hparts.resolve_left hsub
  | lose kept =>
    simp only [ServiceEvent.apply, NothingMissed]
    split_ifs with hsub
    · exact ⟨fun hs _ => hs.parts, fun hs => ⟨h.main, hs hsub⟩⟩
    · exact iff_of_true h fun hs => absurd hs hsub
  | subscribe =>
    refine iff_of_true ?_ trivial
    simp only [ServiceEvent.apply]
    split_ifs
    · exact ⟨h.main, h.parts⟩
    · exact h
  | deliver =>
    refine iff_of_true ?_ trivial
    simp only [ServiceEvent.apply]
    split
    · exact ⟨h.main, .inr fun p => .inl (Nat.zero_le _)⟩
    · exact h
  | main order => exact iff_of_true (tracksParts_main h order) trivial
  | callback order => exact iff_of_true (tracksParts_callback h order) trivial

/-! ### What may happen next -/

/-- The memory goes on without new changes and losses. -/
def ServiceEvent.Quiet : ServiceEvent → Prop
  | .change .. | .lose _ => False
  | .subscribe | .deliver | .main _ | .callback _ => True

/-- However `main`, the listener and its callback go on, as long as no other change comes along
the memory has what the database has whenever everything is settled. -/
def NothingLost (files : ListFiles) (s : Service) : Prop :=
  ∀ es, (∀ e ∈ es, ServiceEvent.Quiet e) →
    let s' := run (ServiceEvent.apply files) s es
    s'.Settled → FreshlyLoaded files s'.db s'.engine

theorem TracksParts.nothingLost {s : Service} (h : TracksParts files s) : NothingLost files s := by
  intro es hes s' hs'
  refine TracksParts.freshlyLoaded ?_ hs'
  refine along_invariant (fun _ s => TracksParts files s) h (fun es e hs he => ?_) es
    ((along_const s es).2 hes)
  refine (tracksParts_apply _ e hs).2 ?_
  cases e with
  | change => exact he.elim
  | lose => exact he.elim
  | _ => trivial

theorem NothingLost.run {s : Service} (h : NothingLost files s) (es : List ServiceEvent)
    (hes : ∀ e ∈ es, e.Quiet) : NothingLost files (run (ServiceEvent.apply files) s es) := by
  intro fs hfs
  rw [← run_append]
  exact h (es ++ fs) (List.forall_mem_append.2 ⟨hes, hfs⟩)

/-- A process with nothing left to do needs only to subscribe. -/
theorem NothingLost.current {s : Service} (h : NothingLost files s) (hmain : s.main = .idle)
    (hcallback : s.callback = .idle) (hpending : s.pending = []) (p : Part) :
    p.Current files s.db s.engine := by
  have hsub : ServiceEvent.apply files s .subscribe = { s with subscribed := true } :=
    if_pos ⟨by rw [hmain]; rfl, hpending, hcallback⟩
  have hfresh := h [.subscribe] (by simp [ServiceEvent.Quiet])
  rw [run_cons, run_nil, hsub] at hfresh
  exact freshlyLoaded_iff_current.1 (hfresh ⟨rfl, hpending, hcallback, hmain⟩) p

/-- What does not fit can be loaded so that it shows. -/
theorem exists_not_current {p : Part} {seen db : Database} (h : ¬ p.Fits files seen db) :
    ∃ order, (p = .categories → Enumerates order seen.loadCategoryDomains) ∧
      ∀ e, ¬ p.Current files db (p.load files order seen e) := by
  cases p with
  | lists =>
    refine ⟨[], nofun, fun e hcur => h ?_⟩
    have hseen : Part.lists.Current files seen (Part.lists.load files [] seen e) :=
      current_load (p := .lists) (Part.Fits.refl seen _) nofun e
    exact hseen.symm.trans hcur
  | categories =>
    obtain ⟨_, ⟨order, horder, rfl⟩, hnot⟩ := Set.not_subset.1 h
    exact ⟨order, fun _ => horder, fun e => hnot⟩
  | policies => exact ⟨[], nofun, fun e => h⟩

/-- How many steps are left. -/
def Loading.left : Loading → ℕ
  | idle => 0
  | read p => 6 - 2 * p.rank
  | apply p _ => 5 - 2 * p.rank

/-- A sequence of loads can be brought to its end, and changes only the parts that are left. -/
theorem Loading.exists_finish (files : ListFiles) (db : Database) (e : Engine) (l : Loading) :
    ∃ orders : List (List (Σ _ : ℤ, List GoString)),
      let r := EventRun.run (fun x order => Loading.step files db order x.1 x.2) (e, l) orders
      r.2 = .idle ∧ ∀ p, ¬ l.WillApply p → (p.Current files db r.1 ↔ p.Current files db e) := by
  induction hn : l.left using Nat.strong_induction_on generalizing e l with
  | _ n ih =>
    subst hn
    cases l with
    | idle => exact ⟨[], rfl, fun p _ => Iff.rfl⟩
    | read p =>
      have hless : (Loading.apply p db).left < (Loading.read p).left := by
        cases p <;> simp [Loading.left, Part.rank]
      obtain ⟨orders, hidle, hcur⟩ := ih _ hless e (.apply p db) rfl
      exact ⟨[] :: orders, hidle, hcur⟩
    | apply p seen =>
      obtain ⟨order, horder⟩ := exists_enumerates seen.loadCategoryDomains
      have hless : p.next.left < (Loading.apply p seen).left := by
        cases p <;> simp [Loading.left, Part.rank, Part.next]
      obtain ⟨orders, hidle, hcur⟩ := ih _ hless (p.load files order seen e) p.next rfl
      have hstep : Loading.step files db order e (.apply p seen) =
          (p.load files order seen e, p.next) := if_pos fun _ => horder
      refine ⟨order :: orders, ?_, fun p' hp' => ?_⟩
      · rw [run_cons, hstep]
        exact hidle
      · rw [run_cons, hstep]
        have hne : p' ≠ p := by
          rintro rfl
          exact hp' le_rfl
        refine (hcur p' ?_).trans (current_load_of_ne hne)
        rw [willApply_next]
        exact fun hlt => hp' hlt.le

theorem run_mainSteps (files : ListFiles) (s : Service)
    (orders : List (List (Σ _ : ℤ, List GoString))) :
    run (ServiceEvent.apply files) s (orders.map .main) =
      let r := run (fun x order => Loading.step files s.db order x.1 x.2) (s.engine, s.main) orders
      { s with engine := r.1, main := r.2 } := by
  induction orders generalizing s with
  | nil => rfl
  | cons order orders ih => rw [List.map_cons, run_cons, ih]; rfl

theorem run_callbackSteps (files : ListFiles) (s : Service)
    (orders : List (List (Σ _ : ℤ, List GoString))) :
    run (ServiceEvent.apply files) s (orders.map .callback) =
      let r := run (fun x order => Loading.step files s.db order x.1 x.2) (s.engine, s.callback)
        orders
      { s with engine := r.1, callback := r.2 } := by
  induction orders generalizing s with
  | nil => rfl
  | cons order orders ih => rw [List.map_cons, run_cons, ih]; rfl

/-- `main` can finish by itself. -/
theorem NothingLost.finish_main {s : Service} (h : NothingLost files s) :
    ∃ e, NothingLost files { s with engine := e, main := .idle } ∧
      ∀ p, ¬ s.main.WillApply p → (p.Current files s.db e ↔ p.Current files s.db s.engine) := by
  obtain ⟨orders, hidle, hcur⟩ := s.main.exists_finish files s.db s.engine
  have hrun := h.run (orders.map .main) (by simp [ServiceEvent.Quiet])
  rw [run_mainSteps] at hrun
  dsimp only at hrun hidle
  rw [hidle] at hrun
  exact ⟨_, hrun, hcur⟩

/-- The callback can finish by itself. -/
theorem NothingLost.finish_callback {s : Service} (h : NothingLost files s) :
    ∃ e, NothingLost files { s with engine := e, callback := .idle } ∧
      ∀ p, ¬ s.callback.WillApply p → (p.Current files s.db e ↔ p.Current files s.db s.engine) := by
  obtain ⟨orders, hidle, hcur⟩ := s.callback.exists_finish files s.db s.engine
  have hrun := h.run (orders.map .callback) (by simp [ServiceEvent.Quiet])
  rw [run_callbackSteps] at hrun
  dsimp only at hrun hidle
  rw [hidle] at hrun
  exact ⟨_, hrun, hcur⟩

/-- All notifications that are left can be handled. -/
theorem NothingLost.drain {s : Service} (h : NothingLost files s) :
    ∃ e, NothingLost files { s with engine := e, pending := [], callback := .idle } := by
  obtain ⟨e, he, -⟩ := h.finish_callback
  clear h
  induction hp : s.pending generalizing s e with
  | nil => exact ⟨e, hp ▸ he⟩
  | cons t pending ih =>
    have hdeliver := he.run [.deliver] (by simp [ServiceEvent.Quiet])
    rw [run_cons, run_nil] at hdeliver
    simp only [ServiceEvent.apply, hp] at hdeliver
    obtain ⟨e', he', -⟩ := hdeliver.finish_callback
    exact ih (s := { s with pending := pending }) e' he' rfl

theorem NothingLost.tracksParts {s : Service} (h : NothingLost files s) : TracksParts files s := by
  refine ⟨fun p seen hp => ?_, or_iff_not_imp_left.2 fun hpending p => ?_⟩
  · -- the callback handles everything first, then `main` goes on
    by_contra hfits
    obtain ⟨order, horder, hstale⟩ := exists_not_current hfits
    obtain ⟨e, he⟩ := h.drain
    have hstep := he.run [.main order] (by simp [ServiceEvent.Quiet])
    rw [run_cons, run_nil] at hstep
    simp only [ServiceEvent.apply, hp, Loading.step, if_pos horder] at hstep
    obtain ⟨e', he', hcur⟩ := hstep.finish_main
    have hleft : ¬ p.next.WillApply p := fun hw => lt_irrefl _ (willApply_next.1 hw)
    exact hstale e ((hcur p hleft).1 (he'.current rfl rfl rfl p))
  · -- `main` finishes first, then the callback goes on
    have hnil : s.pending = [] := not_not.1 hpending
    obtain ⟨e, he, hmain⟩ := h.finish_main
    refine or_iff_not_imp_left.2 fun hread => ⟨fun seen hp => ?_, or_iff_not_imp_left.2 fun hno =>
      or_iff_not_imp_left.2 fun happly => ?_⟩
    · by_contra hfits
      obtain ⟨order, horder, hstale⟩ := exists_not_current hfits
      have hstep := he.run [.callback order] (by simp [ServiceEvent.Quiet])
      rw [run_cons, run_nil] at hstep
      simp only [ServiceEvent.apply, hp, Loading.step, if_pos horder] at hstep
      obtain ⟨e', he', hcur⟩ := hstep.finish_callback
      have hleft : ¬ p.next.WillApply p := fun hw => lt_irrefl _ (willApply_next.1 hw)
      exact hstale e ((hcur p hleft).1 (he'.current rfl rfl hnil p))
    · obtain ⟨e', he', hcur⟩ := he.finish_callback
      have hleft : ¬ s.callback.WillApply p := by
        intro hw
        cases hc : s.callback with
        | idle => rwa [hc] at hw
        | read p' => exact hread (by rwa [hc] at hw ⊢)
        | apply p' seen =>
          rw [hc] at hw
          have hne : p ≠ p' := fun heq => hno ⟨seen, by rw [hc, heq]⟩
          exact hread (by rw [hc]; exact (rank_lt_iff hne).2 hw)
      exact (hmain p happly).1 ((hcur p hleft).1 (he'.current rfl rfl hnil p))

/-- **No change is ever lost, however a run goes on, exactly along the runs that miss no
change.** -/
theorem no_change_lost_iff (files : ListFiles) (db : Database) (es : List ServiceEvent) :
    (∀ fs, fs <+: es → NothingLost files (run (ServiceEvent.apply files) (.boot db) fs)) ↔
      Along (ServiceEvent.apply files) (NothingMissed files) (.boot db) es := by
  have hboot : TracksParts files (.boot db) :=
    ⟨nofun, .inr fun p => .inr ⟨nofun, .inr (.inl (Nat.zero_le _))⟩⟩
  rw [along_iff (TracksParts files) tracksParts_apply hboot]
  exact forall₂_congr fun fs _ => ⟨NothingLost.tracksParts, TracksParts.nothingLost⟩

end Outage

/-- A change between the first loads and the first `LISTEN`, and a change during an outage, are
lost: everything is settled, and the blacklist does not have the new entry. -/
theorem change_lost :
    letI := asciiTable
    let files : ListFiles := ⟨.missing, .missing⟩
    let loads : List ServiceEvent := List.replicate 6 (.main [])
    let added : ServiceEvent := .change adsDatabase .blocklistEntries rfl
    ∀ es ∈ [loads ++ [added, .subscribe], loads ++ [.subscribe, .lose 0, added, .subscribe]],
      let s := run (ServiceEvent.apply files) (.boot { adsDatabase with entries := [] }) es
      s.Settled ∧ ¬ FreshlyLoaded files s.db s.engine := by
  intro files loads added es hes
  rw [List.mem_pair] at hes
  rcases hes with rfl | rfl
  · refine ⟨by decide +kernel, fun h => ?_⟩
    have hlists := ((@freshlyLoaded_iff asciiTable _ _ _).1 h).1
    revert hlists
    decide +kernel
  · refine ⟨by decide +kernel, fun h => ?_⟩
    have hlists := ((@freshlyLoaded_iff asciiTable _ _ _).1 h).1
    revert hlists
    decide +kernel

end DnsFilter
