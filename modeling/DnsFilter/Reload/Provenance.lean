import DnsFilter.Api.Access
import DnsFilter.Filter.Changes

/-!
# Why a query is refused

The lists, categories, policies and ranges in memory are filled piece by piece, by the process
start, the callback of the listener and the jobs of handlers, in any order and with anything in
between.  Everything in them is nevertheless something that the database, or a list file, has
held at some moment of the run.

* `Boot.installation`: the installation that `main` sets up;
* `Seen`, `Seen.domains`, `Seen.ranges`: what the process has been able to read;
* `Installation.From`: memory and jobs hold nothing else, and no event changes that
  (`Installation.From.apply`);
* `Cause`, `refusal_run`: every refusal has its cause in the database or in a list file.
-/

namespace DnsFilter

open Blacklist Engine EventRun

/-! ### Sources -/

/-- What a process has been able to read. -/
structure Seen where
  databases : Set Database
  files : Set ListFiles

namespace Seen

/-- One process has been able to read more than another. -/
structure Within (h h' : Seen) : Prop where
  databases : h.databases ⊆ h'.databases
  files : h.files ⊆ h'.files

/-- The domains for a list. -/
def domains (h : Seen) : ListKind → Set GoString
  | .black =>
      {d | (∃ db ∈ h.databases, (d, 0) ∈ db.activeEntryRows) ∨
        ∃ files ∈ h.files, d ∈ files.blocklist.domains}
  | .white =>
      {d | (∃ db ∈ h.databases, (d, 1) ∈ db.activeEntryRows) ∨
        ∃ files ∈ h.files, d ∈ files.allowlist.domains}

def ranges (h : Seen) : Set IPRange := {r | ∃ db ∈ h.databases, r ∈ tableRanges db.ipRanges}

/-- The maps of categories.  Rows may be missing from them. -/
def categories (h : Seen) : Set CatDomains :=
  {m | ∃ db ∈ h.databases, ∃ rows ⊆ db.categoryRows, m = rows.foldl Store.addCategoryDomain ∅}

def policies (h : Seen) : Set Policies :=
  {p | ∃ db ∈ h.databases, ∃ rows ⊆ db.policies, p = rows.foldl Store.addGroupPolicy ∅}

theorem Within.domains {h h' : Seen} (hsub : h.Within h') (l : ListKind) :
    h.domains l ⊆ h'.domains l := by
  cases l <;> rintro d (⟨db, hdb, hd⟩ | ⟨files, hfiles, hd⟩)
  · exact .inl ⟨db, hsub.databases hdb, hd⟩
  · exact .inr ⟨files, hsub.files hfiles, hd⟩
  · exact .inl ⟨db, hsub.databases hdb, hd⟩
  · exact .inr ⟨files, hsub.files hfiles, hd⟩

theorem Within.ranges {h h' : Seen} (hsub : h.Within h') : h.ranges ⊆ h'.ranges := by
  rintro r ⟨db, hdb, hr⟩
  exact ⟨db, hsub.databases hdb, hr⟩

theorem Within.categories {h h' : Seen} (hsub : h.Within h') : h.categories ⊆ h'.categories := by
  rintro m ⟨db, hdb, hm⟩
  exact ⟨db, hsub.databases hdb, hm⟩

theorem Within.policies {h h' : Seen} (hsub : h.Within h') : h.policies ⊆ h'.policies := by
  rintro p ⟨db, hdb, hp⟩
  exact ⟨db, hsub.databases hdb, hp⟩

end Seen

/-! ### The engine -/

/-- What a step of a reload brings comes from a source. -/
def ReloadStep.From (h : Seen) : ReloadStep → Prop
  | .clear _ => True
  | .add l d => d ∈ h.domains l
  | .loadCategories order => ∃ m ∈ h.categories, Enumerates order m
  | .loadPolicies policies => policies ∈ h.policies

/-- The categories are those of one database, as far as its rows came, and so are the policies; the
domains of the lists may come from several. -/
structure Engine.From [Unicode] (h : Seen) (e : Engine) : Prop where
  lists : ∀ l, ∀ p ∈ (e.list l).domains, ∃ d ∈ h.domains l, normalize d = p
  categories : e.domainCategories = ∅ ∨ ∃ m ∈ h.categories, ∃ order, Enumerates order m ∧
    e.domainCategories = writeCategories (categoryWrites order)
  policies : e.groupPolicies = ∅ ∨ e.groupPolicies ∈ h.policies

section Engine

variable {h h' : Seen}

theorem ReloadStep.From.mono {step : ReloadStep} (hs : step.From h) (hsub : h.Within h') :
    step.From h' := by
  cases step with
  | clear l => trivial
  | add l d => exact hsub.domains l hs
  | loadCategories order =>
    obtain ⟨m, hm, horder⟩ := hs
    exact ⟨m, hsub.categories hm, horder⟩
  | loadPolicies policies => exact hsub.policies hs

/-- The steps that replace the lists by those that come from a database. -/
theorem replaceSteps_from {db : Database} (hdb : db ∈ h.databases)
    {query : Except String (Arrival (GoString × ℤ))} {lists : LoadedLists}
    (hload : Store.loadActiveBlocklistEntries (Store.answer query db.activeEntryRows) =
      .ok lists) :
    ∀ step ∈ replaceSteps lists, step.From h := by
  intro step hstep
  obtain ⟨rows, hrows, rfl⟩ := Store.loadActiveBlocklistEntries_answer hload
  rw [Store.foldl_addListEntry] at hstep
  simp only [replaceSteps, List.mem_cons, List.mem_append, List.mem_map, List.mem_filterMap,
    Option.ite_none_right_eq_some, Option.some.injEq] at hstep
  rcases hstep with rfl | rfl | ⟨d, ⟨⟨d, t⟩, hd, rfl, rfl⟩, rfl⟩ | ⟨d, ⟨⟨d, t⟩, hd, rfl, rfl⟩, rfl⟩
  · trivial
  · trivial
  · exact .inl ⟨db, hdb, hrows.mem_iff.1 hd⟩
  · exact .inl ⟨db, hdb, hrows.mem_iff.1 hd⟩

theorem fileSteps_from {files : ListFiles} (hfiles : files ∈ h.files) :
    ∀ step ∈ fileSteps files, step.From h := by
  intro step hstep
  simp only [fileSteps, List.mem_append, List.mem_map] at hstep
  rcases hstep with ⟨d, hd, rfl⟩ | ⟨d, hd, rfl⟩
  · exact .inr ⟨files, hfiles, hd⟩
  · exact .inr ⟨files, hfiles, hd⟩

variable [Unicode] {e : Engine}

theorem Engine.From.mono (he : e.From h) (hsub : h.Within h') : e.From h' where
  lists l p hp := by
    obtain ⟨d, hd, hdp⟩ := he.lists l p hp
    exact ⟨d, hsub.domains l hd, hdp⟩
  categories := he.categories.imp_right fun ⟨m, hm, hrest⟩ => ⟨m, hsub.categories hm, hrest⟩
  policies := he.policies.imp_right fun hpolicies => hsub.policies hpolicies

theorem Engine.From.apply (he : e.From h) {step : ReloadStep} (hs : step.From h) :
    (step.apply e).From h := by
  cases step with
  | clear l =>
    refine ⟨fun l' p hp => ?_, ?_, ?_⟩
    · rw [list_apply_clear] at hp
      split_ifs at hp
      · simp at hp
      · exact he.lists l' p hp
    · cases l <;> exact he.categories
    · cases l <;> exact he.policies
  | add l d =>
    refine ⟨fun l' p hp => ?_, ?_, ?_⟩
    · rw [list_apply_add] at hp
      split_ifs at hp with hl
      · rw [domains_add, Finset.mem_insert] at hp
        rcases hp with rfl | hp
        · exact ⟨d, hl ▸ hs, rfl⟩
        · exact he.lists l' p hp
      · exact he.lists l' p hp
    · cases l <;> exact he.categories
    · cases l <;> exact he.policies
  | loadCategories order =>
    obtain ⟨m, hm, horder⟩ := hs
    refine ⟨fun l p hp => he.lists l p ?_, .inr ⟨m, hm, order, horder, rfl⟩, he.policies⟩
    rwa [list_apply_loadCategories] at hp
  | loadPolicies policies =>
    refine ⟨fun l p hp => he.lists l p ?_, he.categories, .inr hs⟩
    rwa [list_apply_loadPolicies] at hp

end Engine

/-! ### Process start -/

section Start

variable [Unicode]

/-- What `main` does before it starts the listener is a reload of a fresh engine. -/
theorem run_startup (files : ListFiles) (lists : Option LoadedLists) :
    run ReloadStep.apply (Engine.new new new)
        (notifySteps files (lists.getD ([], [])) none none) =
      startup files lists none none := by
  rw [run_notifySteps]
  cases lists <;> rfl

theorem run_from {h : Seen} {e : Engine} (he : e.From h) {steps : List ReloadStep}
    (hsteps : ∀ step ∈ steps, step.From h) : (run ReloadStep.apply e steps).From h := by
  induction steps generalizing e with
  | nil => exact he
  | cons step steps ih =>
    exact ih (he.apply (hsteps step List.mem_cons_self))
      fun step' hstep' => hsteps step' (List.mem_cons_of_mem step hstep')

/-- What `main` finds when it starts: its database, how that answers, and the list files. -/
structure Boot where
  now : ℤ
  /-- The cache, the addresses and the log pipeline. -/
  handler : Handler
  users : List AdminUserRow
  nextUserID : ℤ
  store : ConfigStore
  files : ListFiles
  lists : Except String (Arrival (GoString × ℤ))
  rangeRows : Except String (Arrival IPRangeRow)
  /-- The rows of ranges, if the query for them succeeds, and the order in which they are added. -/
  ranges : RangeStart
  rows : ranges.rows =
    (Store.listIPRanges (Store.answer rangeRows store.db.ipRanges)).toOption.getD []

/-- The engine of `main` when it starts the listener. -/
def Boot.engine (b : Boot) : Engine :=
  startup b.files (Store.loadActiveBlocklistEntries
    (Store.answer b.lists b.store.db.activeEntryRows)).toOption none none

/-- What `main` loads comes from its database and its files. -/
theorem Boot.engine_from (b : Boot) {h : Seen} (hdb : b.store.db ∈ h.databases)
    (hfiles : b.files ∈ h.files) : b.engine.From h := by
  have hnew : (Engine.new new new).From h :=
    ⟨fun l p hp => by cases l <;> simp [Engine.new, Engine.list] at hp, .inl rfl, .inl rfl⟩
  rw [Boot.engine, ← run_startup]
  refine run_from hnew fun step hstep => ?_
  simp only [notifySteps, Option.toList_none, List.map_nil, List.append_nil,
    List.mem_append] at hstep
  rcases hstep with hstep | hstep
  · cases hlists : Store.loadActiveBlocklistEntries
        (Store.answer b.lists b.store.db.activeEntryRows) with
    | ok lists =>
      rw [hlists] at hstep
      exact replaceSteps_from hdb hlists step hstep
    | error err =>
      simp only [hlists, Except.toOption, Option.getD_none, replaceSteps, List.map_nil,
        List.append_nil, List.mem_cons, List.not_mem_nil, or_false] at hstep
      rcases hstep with rfl | rfl <;> trivial
  · exact fileSteps_from hfiles step hstep

variable [Miekg]

/-- The running program when the listener has been started; `main` goes on with the categories and
the policies, and only then starts the servers. -/
def Boot.installation (b : Boot) : Installation where
  api := .start b.now b.users b.nextUserID
  loginLimiter := .new 5 10
  apiLimiter := .new 30 60
  store := b.store
  system := .start b.now { b.handler with filter := b.engine, identity := b.ranges.resolver }
  pending := []
  callback := []
  jobs := [[.loadCategories, .loadPolicies]]

end Start

/-! ### Memory and jobs -/

section Memory

variable [Unicode]

structure Handler.From (h : Seen) (handler : Handler) : Prop where
  filter : handler.filter.From h
  ranges : ∀ r ∈ handler.identity.ranges, r ∈ h.ranges
  defaultAuth : handler.identity.defaultAuth = authNone

/-- What a step of a job will do with what was read already. -/
def JobStep.From (h : Seen) : JobStep → Prop
  | .edit step => step.From h
  | .addRange ipRange => ipRange ∈ h.ranges
  | .refresh _ | .loadLists _ | .loadCategories | .loadPolicies => True

/-- The jobs of handlers and of the updater do not read the list files. -/
structure Job.From (h : Seen) (job : Job) : Prop where
  steps : ∀ step ∈ job, JobStep.From h step
  noFiles : JobStep.loadLists true ∉ job

variable [Miekg]

/-- The database is one that was seen, and so are the contents of memory. -/
structure Installation.From (h : Seen) (s : Installation) : Prop where
  current : s.store.db ∈ h.databases
  handler : s.system.handler.From h
  callback : ∀ step ∈ s.callback, JobStep.From h step
  jobs : ∀ job ∈ s.jobs, Job.From h job

variable {h h' : Seen} {s s' : Installation}

omit [Unicode] [Miekg] in
theorem JobStep.From.mono {step : JobStep} (hs : step.From h) (hsub : h.Within h') :
    step.From h' := by
  cases step with
  | edit step => exact ReloadStep.From.mono hs hsub
  | addRange ipRange => exact hsub.ranges hs
  | refresh | loadLists | loadCategories | loadPolicies => trivial

theorem Installation.From.mono (hs : s.From h) (hsub : h.Within h') : s.From h' where
  current := hsub.databases hs.current
  handler := ⟨hs.handler.filter.mono hsub, fun r hr => hsub.ranges (hs.handler.ranges r hr),
    hs.handler.defaultAuth⟩
  callback step hstep := (hs.callback step hstep).mono hsub
  jobs job hjob := ⟨fun step hstep => ((hs.jobs job hjob).steps step hstep).mono hsub,
    (hs.jobs job hjob).noFiles⟩

omit [Miekg] in
/-- The sessions are no part of it. -/
theorem Handler.From.identity {handler : Handler} (hh : handler.From h) {resolver : Resolver}
    (hranges : resolver.ranges = handler.identity.ranges)
    (hauth : resolver.defaultAuth = handler.identity.defaultAuth) :
    { handler with identity := resolver }.From h :=
  ⟨hh.filter, hranges ▸ hh.ranges, hauth.trans hh.defaultAuth⟩

/-- A job like those of handlers is started. -/
theorem Installation.From.start (hs : s.From h) {job : Job} (hjob : Job.From h job) :
    (s.start job).From h where
  current := hs.current
  handler := hs.handler
  callback := hs.callback
  jobs job' hjob' := by
    rcases List.mem_append.1 hjob' with hjob' | hnew
    · exact hs.jobs job' hjob'
    · rw [List.mem_singleton.1 hnew]
      exact hjob

omit [Unicode] [Miekg] in
theorem refreshJob_from (h : Seen) (lists : List ℤ) (job : Job) (hjob : Job.From h job) :
    Job.From h (refreshJob lists ++ job) := by
  refine ⟨fun step hstep => ?_, fun hmem => ?_⟩
  · rcases List.mem_append.1 hstep with hstep | hstep
    · obtain ⟨listID, -, rfl⟩ := List.mem_map.1 hstep
      trivial
    · exact hjob.steps step hstep
  · rcases List.mem_append.1 hmem with hmem | hmem
    · obtain ⟨listID, -, heq⟩ := List.mem_map.1 hmem
      cases heq
    · exact hjob.noFiles hmem

variable [CidrType]

/-- An operation of the store; the database that it leaves is one that is seen. -/
theorem Installation.From.execute (hs : s.From h) {op : StoreOp} {failure : String}
    (hexec : s.execute op failure = .ok s') (hdb : s'.store.db ∈ h.databases) : s'.From h := by
  unfold Installation.execute at hexec
  cases hop : op.execute s.store with
  | none => simp [hop] at hexec
  | some r =>
    simp only [hop, Except.ok.injEq] at hexec
    subst hexec
    exact ⟨hdb, hs.handler, hs.callback, hs.jobs⟩

omit [Unicode] [Miekg] in
/-- A new range is one of the table. -/
theorem mem_tableRanges_of_createIPRange {db db' : Database} {id groupID authMode : ℤ}
    {cidr description : GoString} {cidrNet : IPNet} (hnet : parseCIDR cidr = some cidrNet)
    (hcreate : createIPRange db id cidr groupID authMode description = some db') :
    (⟨cidrNet, groupID, authMode⟩ : IPRange) ∈ tableRanges db'.ipRanges := by
  obtain ⟨text, htext, rfl⟩ := createIPRange_eq_some hcreate
  refine List.mem_filterMap.2 ⟨_, List.mem_append_right _ (List.mem_singleton_self _), ?_⟩
  rw [IPRangeRow.range, CidrType.agrees htext hnet]
  rfl

/-- What a handler that succeeds has done. -/
inductive Handled (s : Installation) : Installation → Prop
  | unchanged : Handled s s
  | invalidated (domain : GoString) :
      Handled s { s with system := (SystemEvent.invalidate domain).apply s.system }
  | executed {op : StoreOp} {failure : String} {s' : Installation}
      (hexec : s.execute op failure = .ok s') : Handled s s'
  | rangeCreated {id groupID authMode : ℤ} {cidr description : GoString} {cidrNet : IPNet}
      {s' : Installation} (hnet : parseCIDR cidr = some cidrNet)
      (hexec : s.execute (.createIPRange id cidr groupID authMode description) "Erro: " = .ok s') :
      Handled s (s'.start [.addRange ⟨cidrNet, groupID, authMode⟩])
  | reloads {query : Except String (Arrival (GoString × ℤ))} {lists : LoadedLists}
      (hload : Store.loadActiveBlocklistEntries (Store.answer query s.store.db.activeEntryRows) =
        .ok lists) : Handled s (s.start ((replaceSteps lists).map .edit))
  | downloads (lists : List ℤ) : Handled s (s.start (refreshJob lists ++ [.loadLists false]))

theorem handled_of_handle {endpoint : Endpoint} (hhandle : s.handle endpoint = .ok s') :
    Handled s s' := by
  cases endpoint with
  | invalidateCache domain =>
    cases hhandle
    exact .invalidated domain
  | createRange id cidr groupID authMode description =>
    simp only [Installation.handle] at hhandle
    cases hnet : parseCIDR cidr with
    | none => simp [hnet] at hhandle
    | some cidrNet =>
      simp only [hnet] at hhandle
      cases hexec : s.execute (.createIPRange id cidr groupID authMode description) "Erro: " with
      | error err => simp [hexec, Except.map] at hhandle
      | ok s₁ =>
        simp only [hexec, Except.map, Except.ok.injEq] at hhandle
        subst hhandle
        exact .rangeCreated hnet hexec
  | reloadLists query =>
    simp only [Installation.handle] at hhandle
    split at hhandle <;> cases hhandle
    rename_i hload
    exact .reloads hload
  | downloadLists query =>
    simp only [Installation.handle] at hhandle
    split at hhandle <;> cases hhandle
    · exact .unchanged
    · exact .downloads _
  | createGroup | updateGroup | deleteGroup | setGroupPolicy | createBlocklist | updateBlocklist
  | deleteBlocklist | addEntries | setBlocklistCategories | updateRange =>
    exact .executed hhandle
  | deleteRange id =>
    have hexec : s.execute (.deleteIPRange id) "Erro: " = .ok s' := hhandle
    exact .executed hexec
  | _ =>
    cases hhandle
    exact .unchanged

theorem Installation.From.handle (hs : s.From h) (hhandled : Handled s s')
    (hdb : s'.store.db ∈ h.databases) : s'.From h := by
  cases hhandled with
  | unchanged => exact hs
  | invalidated domain =>
    exact ⟨hs.current, ⟨hs.handler.filter, hs.handler.ranges, hs.handler.defaultAuth⟩,
      hs.callback, hs.jobs⟩
  | executed hexec => exact hs.execute hexec hdb
  | @rangeCreated id groupID authMode cidr description cidrNet s₁ hnet hexec =>
    refine (hs.execute hexec hdb).start ⟨fun step hstep => ?_, by simp⟩
    rw [List.mem_singleton.1 hstep]
    refine ⟨s₁.store.db, hdb, ?_⟩
    simp only [Installation.execute, StoreOp.execute] at hexec
    cases hcreate : createIPRange s.store.db id cidr groupID authMode description with
    | none => simp [hcreate] at hexec
    | some db =>
      simp only [hcreate, Option.map_some, Except.ok.injEq] at hexec
      subst hexec
      exact mem_tableRanges_of_createIPRange hnet hcreate
  | reloads hload =>
    refine hs.start ⟨fun step hstep => ?_, by simp⟩
    obtain ⟨edit, hedit, rfl⟩ := List.mem_map.1 hstep
    exact replaceSteps_from hs.current hload edit hedit
  | downloads lists =>
    exact hs.start (refreshJob_from h _ [.loadLists false] ⟨by simp [JobStep.From], by simp⟩)

/-- A step of a job, and what is left of the job. -/
theorem Installation.From.work (hs : s.From h) {input : JobInput} {job : Job}
    (hjob : ∀ step ∈ job, JobStep.From h step) (hdb : (s.work input job).1.store.db ∈ h.databases)
    (hfiles : JobStep.loadLists true ∈ job → input.files ∈ h.files) :
    (s.work input job).1.From h ∧ (∀ step ∈ (s.work input job).2, JobStep.From h step) ∧
      (JobStep.loadLists true ∉ job → JobStep.loadLists true ∉ (s.work input job).2) := by
  cases job with
  | nil => exact ⟨hs, hjob, id⟩
  | cons step rest =>
    have hrest : ∀ step ∈ rest, JobStep.From h step :=
      fun step' hstep' => hjob step' (List.mem_cons_of_mem step hstep')
    have hno : JobStep.loadLists true ∉ step :: rest → JobStep.loadLists true ∉ rest :=
      fun hno hmem => hno (List.mem_cons_of_mem step hmem)
    cases step with
    | refresh listID =>
      simp only [Installation.work] at hdb ⊢
      split at hdb
      · split_ifs at hdb ⊢
        · exact ⟨⟨hdb, hs.handler, hs.callback, hs.jobs⟩, hrest, hno⟩
        · exact ⟨hs, hrest, hno⟩
      · exact ⟨hs, hrest, hno⟩
    | loadLists withFiles =>
      simp only [Installation.work] at hdb ⊢
      cases hload : Store.loadActiveBlocklistEntries
          (Store.answer input.lists s.store.db.activeEntryRows) with
      | error err => exact ⟨hs, by simp, by simp⟩
      | ok lists =>
        refine ⟨hs, fun step hstep => ?_, fun hmem hmem' => ?_⟩
        · rcases List.mem_append.1 hstep with hstep | hstep
          · obtain ⟨edit, hedit, rfl⟩ := List.mem_map.1 hstep
            rcases List.mem_append.1 hedit with hedit | hedit
            · exact replaceSteps_from hs.current hload edit hedit
            · cases withFiles with
              | true => exact fileSteps_from (hfiles List.mem_cons_self) edit hedit
              | false => simp at hedit
          · exact hrest step hstep
        · rcases List.mem_append.1 hmem' with hmem' | hmem'
          · obtain ⟨step, -, heq⟩ := List.mem_map.1 hmem'
            cases heq
          · exact hno hmem hmem'
    | loadCategories =>
      simp only [Installation.work] at hdb ⊢
      cases hload : Store.loadCategoryDomains
          (Store.answer input.categories s.store.db.categoryRows) with
      | error err => exact ⟨hs, hrest, hno⟩
      | ok m =>
        dsimp only
        split_ifs with henum
        · have hm : m ∈ h.categories := ⟨_, hs.current, Store.loadCategoryDomains_answer hload⟩
          refine ⟨hs, List.forall_mem_cons.2 ⟨⟨m, hm, henum⟩, hrest⟩, fun hmem => ?_⟩
          rw [List.mem_cons, not_or]
          exact ⟨by simp, hno hmem⟩
        · exact ⟨hs, List.forall_mem_cons.2 ⟨trivial, hrest⟩, id⟩
    | loadPolicies =>
      simp only [Installation.work] at hdb ⊢
      cases hload : Store.loadGroupPolicies
          (Store.answer input.policies s.store.db.policies) with
      | error err => exact ⟨hs, hrest, hno⟩
      | ok policies =>
        have hpolicies : policies ∈ h.policies :=
          ⟨_, hs.current, Store.loadGroupPolicies_answer hload⟩
        refine ⟨hs, List.forall_mem_cons.2 ⟨hpolicies, hrest⟩, fun hmem => ?_⟩
        rw [List.mem_cons, not_or]
        exact ⟨by simp, hno hmem⟩
    | edit step =>
      have hstep : step.From h := hjob _ List.mem_cons_self
      exact ⟨⟨hs.current, ⟨hs.handler.filter.apply hstep, hs.handler.ranges,
        hs.handler.defaultAuth⟩, hs.callback, hs.jobs⟩, hrest, hno⟩
    | addRange ipRange =>
      have hrange : ipRange ∈ h.ranges := hjob _ List.mem_cons_self
      refine ⟨⟨hs.current, ⟨hs.handler.filter, fun r hr => ?_, hs.handler.defaultAuth⟩,
        hs.callback, hs.jobs⟩, hrest, hno⟩
      rcases List.mem_append.1 hr with hr | hnew
      · exact hs.handler.ranges r hr
      · rw [List.mem_singleton.1 hnew]
        exact hrange

variable [Bcrypt] [RealIP]

/-- One event. -/
theorem Installation.From.apply (hs : s.From h) (hsub : h.Within h') {sessionTTL : ℤ}
    {e : InstallationEvent} (hdb : (e.apply sessionTTL s).store.db ∈ h'.databases)
    (hfiles : ∀ input, e = .callback input → input.files ∈ h'.files) :
    (e.apply sessionTTL s).From h' := by
  replace hs := hs.mono hsub
  cases e with
  | tick d => exact ⟨hs.current, hs.handler, hs.callback, hs.jobs⟩
  | login r username password => exact ⟨hs.current, hs.handler, hs.callback, hs.jobs⟩
  | cleanupLogins => exact ⟨hs.current, hs.handler, hs.callback, hs.jobs⟩
  | cleanupApi => exact ⟨hs.current, hs.handler, hs.callback, hs.jobs⟩
  | request r token endpoint =>
    have hcharge : Installation.From h' (.charge { s with api := s.api.record } r) :=
      ⟨hs.current, hs.handler, hs.callback, hs.jobs⟩
    simp only [InstallationEvent.apply] at hdb ⊢
    rcases respond_cases { s with api := s.api.record } r token endpoint with
      hrefused | ⟨s', hserve, hs'⟩
    · rwa [hrefused]
    · rw [hs'] at hdb ⊢
      obtain ⟨api, -, hhandle⟩ := serve_eq_ok hserve
      have hserved : Installation.From h'
          { Installation.charge { s with api := s.api.record } r with api := api } :=
        ⟨hs.current, hs.handler, hs.callback, hs.jobs⟩
      exact hserved.handle (handled_of_handle hhandle) hdb
  | portal r dbFails =>
    have hauth : ∀ auth, (handleAuth auth sessionTTL s.system.handler.identity
          s.api.now r).1.ranges = s.system.handler.identity.ranges ∧
        (handleAuth auth sessionTTL s.system.handler.identity
          s.api.now r).1.defaultAuth = s.system.handler.identity.defaultAuth := by
      intro auth
      rcases handleAuth_cases auth sessionTTL s.system.handler.identity s.api.now r with
        ⟨user, clientIP, -, heq⟩ | heq <;> rw [heq] <;> exact ⟨rfl, rfl⟩
    obtain ⟨hranges, hdefault⟩ := hauth (dbAuthenticate s.api.users dbFails)
    exact ⟨hs.current, hs.handler.identity hranges hdefault, hs.callback, hs.jobs⟩
  | evictSessions => exact ⟨hs.current, hs.handler.identity rfl rfl, hs.callback, hs.jobs⟩
  | takeNotification =>
    simp only [InstallationEvent.apply]
    split
    · exact ⟨hs.current, hs.handler, by simp [notifyJob, JobStep.From], hs.jobs⟩
    · exact hs
  | callback input =>
    obtain ⟨hwork, hjob, -⟩ := hs.work hs.callback hdb fun _ => hfiles input rfl
    exact ⟨hwork.current, hwork.handler, hjob, hwork.jobs⟩
  | work i input =>
    simp only [InstallationEvent.apply] at hdb ⊢
    cases hi : s.jobs[i]? with
    | none => exact hs
    | some job =>
      rw [hi] at hdb
      have hold := hs.jobs job (List.mem_of_getElem? hi)
      obtain ⟨hwork, hjob, hno⟩ := hs.work hold.steps hdb fun hmem => absurd hmem hold.noFiles
      refine ⟨hwork.current, hwork.handler, hwork.callback, fun job' hjob' => ?_⟩
      rcases List.mem_or_eq_of_mem_set hjob' with hjob' | rfl
      · exact hwork.jobs job' hjob'
      · exact ⟨hjob, hno hold.noFiles⟩
  | update query =>
    simp only [InstallationEvent.apply]
    split
    · exact hs
    · rename_i lists _
      have hjob := refreshJob_from h' lists [] ⟨by simp, by simp⟩
      rw [List.append_nil] at hjob
      exact hs.start hjob
  | traffic e he =>
    have hconfig : ¬ e.isConfig := by
      cases e with
      | tick | filter | identity | loadRanges | invalidate => cases he
      | evict | arrive | lookup | exchange => exact Bool.false_ne_true
    obtain ⟨-, cache, hhandler⟩ := SystemEvent.frame s.system hconfig
    refine ⟨hs.current, ?_, hs.callback, hs.jobs⟩
    simp only [InstallationEvent.apply, hhandler]
    exact ⟨hs.handler.filter, hs.handler.ranges, hs.handler.defaultAuth⟩

end Memory

/-! ### Refusals -/

section Refusals

variable [Unicode]

/-- Why a handler refuses a query: a range that asks for a login, a listed domain, or a category
that the policy of the group blocks. -/
inductive Cause (h : Seen) (handler : Handler) (now : ℤ) (inc : Incoming) : Source → Prop
  | captive {r : IPRange} (hr : r ∈ h.ranges) (hmode : r.authMode = authCaptivePortal)
      (hcontains : r.network.contains inc.clientIP = true)
      (hsession : handler.identity.activeSession now inc.clientIP = none) :
      Cause h handler now inc .captive
  | listed {d : GoString} (hd : d ∈ h.domains .black) (hcovers : Covers d inc.question.name)
      (hwhite : ¬ handler.filter.whitelist.contains inc.question.name) :
      Cause h handler now inc .blocked
  | category {id : Identity} {m : CatDomains} {db : Database} {k : GoString} {c : ℤ}
      (hid : handler.identity.resolve now inc.clientIP = .ok id) (hm : m ∈ h.categories)
      (hfirst : FirstListed m inc.question.name k) (hc : Listed m k c) (hdb : db ∈ h.databases)
      (hpolicy : (id.groupID, c) ∈ db.policies)
      (hwhite : ¬ handler.filter.whitelist.contains inc.question.name) :
      Cause h handler now inc .blocked

variable {h : Seen} {handler : Handler} {now : ℤ} {inc : Incoming}

/-- The captive portal is asked for by a range. -/
theorem cause_captive (hh : handler.From h) {id : Identity}
    (hid : handler.identity.resolve now inc.clientIP = .ok id)
    (hmode : id.authMode = authCaptivePortal) : Cause h handler now inc .captive := by
  unfold Resolver.resolve at hid
  split at hid
  · cases hid
    cases hmode
  · rename_i hsession
    split at hid
    · rename_i r hmatch
      cases hid
      exact .captive (hh.ranges r (List.mem_of_find?_eq_some hmatch)) hmode
        (by simpa using List.find?_some hmatch) hsession
    · cases hid
      exact absurd (hh.defaultAuth.symm.trans hmode) (by decide)

/-- A blocked domain is listed, or has a blocked category. -/
theorem cause_blocked (hh : handler.From h) {id : Identity}
    (hid : handler.identity.resolve now inc.clientIP = .ok id)
    (hblock : (handler.filter.evaluateForGroup inc.question.name id.groupID).action = .block) :
    Cause h handler now inc .blocked := by
  obtain ⟨hwhite, hblack | hpolicy⟩ := (action_eq_block _ _ _).1 hblock
  · obtain ⟨p, hp, hmem⟩ := contains_iff.1 hblack
    obtain ⟨d, hd, rfl⟩ := hh.filter.lists .black p hmem
    exact .listed hd hp hwhite
  · obtain ⟨c, hc⟩ := Option.ne_none_iff_exists'.1 hpolicy
    obtain ⟨-, hfind, hblocked⟩ := policyCheck_eq_some_iff.1 hc
    rcases hh.filter.categories with hempty | ⟨m, hm, order, horder, hcategories⟩
    · obtain ⟨k, -, hk⟩ := List.exists_of_findSome?_eq_some hfind
      rw [hempty] at hk
      simp at hk
    · rw [hcategories, findSome?_eq_some_iff horder] at hfind
      obtain ⟨k, hfirst, hk⟩ := hfind
      rcases hh.filter.policies with hempty | ⟨db, hdb, rows, hrows, hpolicies⟩
      · simp [blockedCategories, hempty] at hblocked
      · rw [blockedCategories, hpolicies] at hblocked
        have hrow := Database.mem_lookup_foldl_insert.1 hblocked
        exact .category hid hm hfirst (listed_of_lookup horder hk) hdb (hrows hrow) hwhite

variable [Miekg]

/-- A query that does not get past its arrival is refused, with a cause. -/
theorem cause_of_arrive (hh : handler.From h) {out : Output}
    (harrive : handler.arrive now inc = .inl out) :
    out.reply.incoming = inc ∧ Cause h handler now inc out.reply.source := by
  obtain ⟨id, hid⟩ := handler.identity.resolve_isOk now inc.clientIP
  simp only [Handler.arrive, Handler.admission, hid] at harrive
  split_ifs at harrive with hmode hblock
  · cases harrive
    exact ⟨rfl, cause_captive hh hid hmode⟩
  · cases harrive
    exact ⟨rfl, cause_blocked hh hid hblock⟩

variable [Bcrypt] [CidrType] [RealIP]

/-- The databases there have been, and the files of the start and of the callbacks. -/
def Boot.seen (b : Boot) (sessionTTL : ℤ) (es : List InstallationEvent) : Seen where
  databases := {db | ∃ pre, pre <+: es ∧
    (run (InstallationEvent.apply sessionTTL) b.installation pre).store.db = db}
  files := {files | files = b.files ∨ ∃ input, .callback input ∈ es ∧ files = input.files}

/-- Of a query that was refused in a run: when it came, and why it was refused then. -/
def HasCause (b : Boot) (sessionTTL : ℤ) (es : List InstallationEvent) (w : Reply) : Prop :=
  ∃ pre htraffic, pre ++ [.traffic (.arrive w.incoming) htraffic] <+: es ∧
    let s := run (InstallationEvent.apply sessionTTL) b.installation pre
    Cause (b.seen sessionTTL pre) s.system.handler s.system.now w.incoming w.source

theorem HasCause.mono {b : Boot} {sessionTTL : ℤ} {es es' : List InstallationEvent} {w : Reply}
    (hw : HasCause b sessionTTL es w) (hsub : es <+: es') : HasCause b sessionTTL es' w := by
  obtain ⟨pre, htraffic, hpre, hcause⟩ := hw
  exact ⟨pre, htraffic, hpre.trans hsub, hcause⟩

theorem Boot.seen_mono (b : Boot) (sessionTTL : ℤ) (es : List InstallationEvent)
    (e : InstallationEvent) : (b.seen sessionTTL es).Within (b.seen sessionTTL (es ++ [e])) where
  databases := by
    rintro db ⟨pre, hpre, hdb⟩
    exact ⟨pre, hpre.trans (List.prefix_append es [e]), hdb⟩
  files := by
    rintro files (rfl | ⟨input, hinput, rfl⟩)
    · exact .inl rfl
    · exact .inr ⟨input, List.mem_append_left _ hinput, rfl⟩

omit [Bcrypt] [CidrType] [RealIP] in
/-- What a fresh installation holds comes from its start. -/
theorem Boot.installation_from (b : Boot) {h : Seen} (hdb : b.store.db ∈ h.databases)
    (hfiles : b.files ∈ h.files) : b.installation.From h where
  current := hdb
  handler := by
    refine ⟨b.engine_from hdb hfiles, fun r hr => ⟨b.store.db, hdb, ?_⟩, (start_fresh b.ranges).1.2⟩
    have hsorted : r ∈ tableRanges b.ranges.sorted := by
      have hranges : b.ranges.resolver.ranges = tableRanges b.ranges.sorted := by
        rw [RangeStart.resolver, ranges_foldl_addRow]
        rfl
      rwa [← hranges]
    obtain ⟨row, hrow, hr⟩ := List.mem_filterMap.1 hsorted
    have hread : row ∈ (Store.listIPRanges
        (Store.answer b.rangeRows b.store.db.ipRanges)).toOption.getD [] := by
      rw [← b.rows]
      exact b.ranges.perm.mem_iff.1 hrow
    cases hlist : Store.listIPRanges (Store.answer b.rangeRows b.store.db.ipRanges) with
    | error err => simp [hlist, Except.toOption] at hread
    | ok rows =>
      rw [hlist] at hread
      exact List.mem_filterMap.2 ⟨row, Store.listIPRanges_answer hlist hread, hr⟩
  callback := by simp [Boot.installation]
  jobs job hjob := by
    rw [List.mem_singleton.1 hjob]
    exact ⟨by simp [JobStep.From], by simp⟩

omit [Bcrypt] [CidrType] [RealIP] in
/-- The reply that an arriving query gets at once. -/
theorem mem_replies_arrive {s : System} {w : Reply}
    (hw : w ∈ ((SystemEvent.arrive inc).apply s).replies) :
    w ∈ s.replies ∨ ∃ out, s.handler.arrive s.now inc = .inl out ∧ w = out.reply := by
  simp only [SystemEvent.apply] at hw
  split_ifs at hw
  · exact .inl hw
  · cases harrive : s.handler.arrive s.now inc with
    | inl out =>
      simp only [harrive, System.write, List.mem_append, List.mem_singleton] at hw
      exact hw.imp_right fun hw => ⟨out, rfl, hw⟩
    | inr q =>
      simp only [harrive] at hw
      exact .inl hw

omit [Bcrypt] [RealIP] in
/-- Handlers write no replies to queries. -/
theorem replies_of_handled {s s' : Installation} (hhandled : Handled s s') :
    s'.system.replies = s.system.replies := by
  have hexecute : ∀ {op failure s'}, s.execute op failure = .ok s' → s'.system = s.system := by
    intro op failure s' hexec
    unfold Installation.execute at hexec
    split at hexec <;> cases hexec
    rfl
  cases hhandled with
  | unchanged | invalidated | reloads | downloads => rfl
  | executed hexec => rw [hexecute hexec]
  | rangeCreated hnet hexec =>
    have hsystem := hexecute hexec
    exact congrArg System.replies hsystem

omit [Bcrypt] [RealIP] in
/-- Nor do jobs. -/
theorem replies_work (s : Installation) (input : JobInput) (job : Job) :
    (s.work input job).1.system.replies = s.system.replies := by
  cases job with
  | nil => rfl
  | cons step rest =>
    cases step with
    | edit | addRange => rfl
    | refresh listID =>
      simp only [Installation.work]
      split
      · split_ifs <;> rfl
      · rfl
    | loadLists | loadPolicies =>
      simp only [Installation.work]
      split <;> rfl
    | loadCategories =>
      simp only [Installation.work]
      split
      · rfl
      · split_ifs <;> rfl

/-- Only arriving queries are refused. -/
theorem refusals_apply {sessionTTL : ℤ} {s : Installation} {e : InstallationEvent}
    (he : ∀ inc htraffic, e ≠ .traffic (.arrive inc) htraffic) :
    (e.apply sessionTTL s).system.config.refusals = s.system.config.refusals := by
  have hreplies : ∀ {s' : System}, s'.replies = s.system.replies →
      s'.config.refusals = s.system.config.refusals := by
    intro s' hs'
    simp only [System.config, hs']
  cases e with
  | tick | login | cleanupLogins | cleanupApi | portal | evictSessions => rfl
  | request r token endpoint =>
    simp only [InstallationEvent.apply]
    rcases respond_cases { s with api := s.api.record } r token endpoint with
      hrefused | ⟨s', hserve, hs'⟩
    · rw [hrefused]
      rfl
    · rw [hs']
      obtain ⟨api, -, hhandle⟩ := serve_eq_ok hserve
      have hhandled := replies_of_handled (handled_of_handle hhandle)
      exact hreplies hhandled
  | update query =>
    simp only [InstallationEvent.apply]
    split <;> rfl
  | takeNotification =>
    simp only [InstallationEvent.apply]
    split <;> rfl
  | callback input => exact hreplies (replies_work s input s.callback)
  | work i input =>
    simp only [InstallationEvent.apply]
    split
    · rfl
    · exact hreplies (replies_work s input _)
  | traffic e htraffic =>
    have harrive : ∀ inc, e ≠ .arrive inc := by
      rintro inc rfl
      exact he inc htraffic rfl
    have hconfig : e.isConfig = false := by
      cases e with
      | tick | filter | identity | loadRanges | invalidate => cases htraffic
      | evict | arrive | lookup | exchange => rfl
    exact congrArg PolicyConfig.refusals (config_progress s.system hconfig harrive)

/-- **Everything that the filter holds in memory, or that a job is about to put there, comes from
the database as it was at some moment of the run, or from a list file; and every query that is
refused was refused, when it arrived, for a range of such a database that asks for a login and
contains the client, for a listed domain that covers the name, or for a category that lists it and
that a policy of its group blocks.** -/
theorem refusal_run (b : Boot) (sessionTTL : ℤ) (es : List InstallationEvent) :
    (run (InstallationEvent.apply sessionTTL) b.installation es).From (b.seen sessionTTL es) ∧
      ∀ w ∈ (run (InstallationEvent.apply sessionTTL) b.installation es).system.replies,
        w.isRefusal → HasCause b sessionTTL es w := by
  refine trace_invariant (fun es (s : Installation) => s.From (b.seen sessionTTL es) ∧
    ∀ w ∈ s.system.replies, w.isRefusal → HasCause b sessionTTL es w) ?_ (fun es e ih => ?_) es
  · refine ⟨b.installation_from ⟨[], List.prefix_rfl, rfl⟩ (.inl rfl), ?_⟩
    simp [Boot.installation, System.start]
  · have hsub := b.seen_mono sessionTTL es e
    have hlater : ∀ w, HasCause b sessionTTL es w → HasCause b sessionTTL (es ++ [e]) w :=
      fun w hw => hw.mono (List.prefix_append es [e])
    refine ⟨ih.1.apply hsub ⟨es ++ [e], List.prefix_rfl, by rw [run_concat]⟩ ?_,
      fun w hw hrefused => ?_⟩
    · rintro input rfl
      exact .inr ⟨input, by simp, rfl⟩
    by_cases he : ∃ inc htraffic, e = .traffic (.arrive inc) htraffic
    · obtain ⟨inc, htraffic, rfl⟩ := he
      rcases mem_replies_arrive hw with hw | ⟨out, harrive, rfl⟩
      · exact hlater w (ih.2 w hw hrefused)
      · obtain ⟨hinc, hcause⟩ := cause_of_arrive ih.1.handler harrive
        rw [← hinc] at hcause
        exact ⟨es, htraffic, by rw [hinc], hcause⟩
    · push Not at he
      have hold : w ∈ (run (InstallationEvent.apply sessionTTL) b.installation
          es).system.config.refusals := by
        rw [← refusals_apply he]
        exact List.mem_filter.2 ⟨hw, hrefused⟩
      exact hlater w (ih.2 w (List.mem_of_mem_filter hold) hrefused)

end Refusals

/-- An administrator and an empty database. -/
def firstBoot : Boot where
  now := 0
  handler := openHandler
  users := [⟨1, "admin".toList, "a".toList, 0, true⟩]
  nextUserID := 2
  store := .migrated
  files := ⟨.missing, .missing⟩
  lists := .ok .complete
  rangeRows := .error "conn closed"
  ranges := emptyStart
  rows := rfl

/-- A list with two entries gets a category, which the default group blocks.  When the callback
reads the categories, the connection breaks after one row; a subdomain of that is refused. -/
def listedRun : letI := plainMiekg; List InstallationEvent :=
  letI := plainMiekg
  let request := InstallationEvent.request (loginFrom 1000) (newClaims 0 1 "admin".toList 0)
  let input : JobInput :=
    { categories := .ok { Arrival.complete with breaks := some 1 }
      order := [⟨1, ["a.com".toList]⟩] }
  [.login (loginFrom 1000) "admin".toList "a".toList,
    request (.createBlocklist "ads".toList [] 0),
    request (.addEntries 1 ["a.com".toList, "b.com".toList]),
    request (.setBlocklistCategories 1 [1]), request (.setGroupPolicy 1 [1]),
    .takeNotification] ++ List.replicate 7 (.callback input) ++
  [.traffic (.arrive (askFor 0 ⟨"x.a.com.".toList, typeA, classINET, ascii_of_all rfl⟩)) rfl]

theorem refusal_run_listed :
    letI := asciiTable; letI := plainMiekg; letI := plainBcrypt; letI := plainCidr
    letI := chiRealIP
    ∃ w ∈ (run (InstallationEvent.apply hour) firstBoot.installation listedRun).system.replies,
      w.source = .blocked ∧ HasCause firstBoot hour listedRun w := by
  let := asciiTable
  let := plainMiekg
  let := plainBcrypt
  let := plainCidr
  let := chiRealIP
  have hsources : (run (InstallationEvent.apply hour) firstBoot.installation
      listedRun).system.replies.map Reply.source = [.blocked] := by decide +kernel
  have hmem : Source.blocked ∈ (run (InstallationEvent.apply hour) firstBoot.installation
      listedRun).system.replies.map Reply.source := by
    rw [hsources]
    exact List.mem_singleton_self _
  obtain ⟨w, hw, hsource⟩ := List.mem_map.1 hmem
  refine ⟨w, hw, hsource, (refusal_run firstBoot hour listedRun).2 w hw ?_⟩
  simp [Reply.isRefusal, hsource]

end DnsFilter
