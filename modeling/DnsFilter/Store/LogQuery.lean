import DnsFilter.Lib.Parameters
import DnsFilter.Store.Logs

/-!
# The statements of the log search

`QueryLogs` of `internal/store/logs.go` puts its two statements together from the filters that are
set, and counts the parameters itself.

* `LogConditions.add`: one of its five `if`s, with the variables `where`, `args` and `argN`;
* `LogFilter.countQuery`, `LogFilter.dataQuery`: the texts that it sends;
* `SqlColumn`, `SqlOperator`, `SqlType`: the columns, operators and casts of the database, with
  its own words for them;
* `readWhere`: what a `WHERE` clause means to the database;
* `logs_statements`: both statements mean what the filter says, and what a client typed is in
  neither of their texts.
-/

namespace DnsFilter

open GoString Parameters

/-- A column that can be filtered by. -/
inductive LogColumn
  | clientIP
  | domain
  | action
  | dateFrom
  | dateTo
  deriving DecidableEq

/-- A value that a statement is sent with. -/
inductive LogArg
  | text (s : GoString)
  | int (n : ℤ)
  deriving DecidableEq

namespace LogColumn

/-- In the order of the `if`s. -/
def all : List LogColumn := [.clientIP, .domain, .action, .dateFrom, .dateTo]

def field (f : LogFilter) : LogColumn → GoString
  | .clientIP => f.clientIP
  | .domain => f.domain
  | .action => f.action
  | .dateFrom => f.dateFrom
  | .dateTo => f.dateTo

/-- What is sent for the field. -/
def arg (f : LogFilter) : LogColumn → GoString
  | .domain => "%".toList ++ f.domain ++ "%".toList
  | c => c.field f

def name : LogColumn → GoString
  | .clientIP => "client_ip".toList
  | .domain => "domain".toList
  | .action => "action".toList
  | .dateFrom | .dateTo => "queried_at".toList

def operator : LogColumn → GoString
  | .clientIP | .action => "=".toList
  | .domain => "ILIKE".toList
  | .dateFrom => ">=".toList
  | .dateTo => "<=".toList

/-- The cast of the parameter. -/
def cast : LogColumn → GoString
  | .clientIP => "::inet".toList
  | .domain | .action => []
  | .dateFrom | .dateTo => "::timestamptz".toList

/-- The condition, with its parameter. -/
def condition (c : LogColumn) (argN : ℕ) : GoString :=
  c.name ++ " ".toList ++ c.operator ++ " ".toList ++ parameter argN ++ c.cast

end LogColumn

/-- The variables `where`, `args` and `argN`. -/
structure LogConditions where
  texts : List GoString
  args : List LogArg
  argN : ℕ

def LogConditions.start : LogConditions := ⟨["1=1".toList], [], 1⟩

/-- One of the `if`s. -/
def LogConditions.add (f : LogFilter) (s : LogConditions) (c : LogColumn) : LogConditions :=
  if c.field f ≠ [] then
    { texts := s.texts ++ [c.condition s.argN]
      args := s.args ++ [.text (c.arg f)]
      argN := s.argN + 1 }
  else s

namespace LogFilter

def conditions (f : LogFilter) : LogConditions :=
  LogColumn.all.foldl (LogConditions.add f) .start

/-- `whereClause` of the source. -/
def whereText (f : LogFilter) : GoString := List.intercalate " AND ".toList f.conditions.texts

def countText : GoString := "SELECT COUNT(*) FROM dns_query_logs WHERE ".toList

def selectText : GoString :=
  "\n\t\tSELECT queried_at, client_ip::text, user_id, group_id, domain, query_type,".toList ++
    "\n\t\t       action, response_ms, COALESCE(upstream, '')".toList ++
    "\n\t\tFROM dns_query_logs\n\t\tWHERE ".toList

def limitText : GoString := "\n\t\tORDER BY queried_at DESC\n\t\tLIMIT ".toList

def offsetText : GoString := " OFFSET ".toList

def endText : GoString := "\n\t".toList

def countQuery (f : LogFilter) : GoString := countText ++ f.whereText

def dataQuery (f : LogFilter) : GoString :=
  selectText ++ f.whereText ++ limitText ++ parameter f.conditions.argN ++ offsetText ++
    parameter (f.conditions.argN + 1) ++ endText

/-- The values that the second statement is sent with. -/
def dataArgs (f : LogFilter) : List LogArg := f.conditions.args ++ [.int f.limit, .int f.offset]

end LogFilter

/-! ### What a clause means -/

/-- A type of the columns of `dns_query_logs`. -/
inductive SqlType
  | inet
  | text
  | smallint
  | timestamptz
  deriving DecidableEq

/-- Its values. -/
def SqlType.Value : SqlType → Type
  | .inet => IP
  | .text => GoString
  | .smallint | .timestamptz => ℤ

/-- A column that is never `NULL` and has one of these types. -/
inductive SqlColumn
  | queriedAt
  | clientIP
  | domain
  | queryType
  | action
  deriving DecidableEq

def SqlColumn.type : SqlColumn → SqlType
  | .queriedAt => .timestamptz
  | .clientIP => .inet
  | .domain => .text
  | .queryType | .action => .smallint

def SqlColumn.value (e : Entry) : (c : SqlColumn) → c.type.Value
  | .queriedAt => e.queriedAt
  | .clientIP => e.clientIP
  | .domain => e.domain
  | .queryType => (e.queryType.toNat : ℤ)
  | .action => e.action.toInt

inductive SqlOperator
  | eq
  | ne
  | lt
  | le
  | gt
  | ge
  | ilike
  deriving DecidableEq

/-- The database's words for its columns, … -/
def SqlColumn.names : List (String × SqlColumn) :=
  [("queried_at", .queriedAt), ("client_ip", .clientIP), ("domain", .domain),
    ("query_type", .queryType), ("action", .action)]

/-- … for its operators … -/
def SqlOperator.names : List (String × SqlOperator) :=
  [("=", .eq), ("<>", .ne), ("!=", .ne), ("<", .lt), ("<=", .le), (">", .gt), (">=", .ge),
    ("ILIKE", .ilike)]

/-- … and for its casts. -/
def SqlType.casts : List (String × SqlType) :=
  [("::inet", .inet), ("::text", .text), ("::smallint", .smallint),
    ("::timestamptz", .timestamptz)]

/-- A word of a statement, with values in place of its parameters. -/
abbrev Word := List (Char ⊕ LogArg)

/-- What a word stands for. -/
def readName {α : Type} (names : List (String × α)) (w : Word) : Option α :=
  (names.find? fun p => w = literal p.1.toList).map Prod.snd

/-- The type of a parameter: that of its cast or, without one, that of the column. -/
def valueType (column : SqlType) (cast : Word) : Option SqlType :=
  if cast = [] then some column else readName SqlType.casts cast

/-- The operators on addresses, with `b` on their right. -/
def SqlOperator.onAddresses (b : IP) : SqlOperator → Option (IP → Bool)
  | .eq => some fun a => a.canonical = b.canonical
  | .ne => some fun a => a.canonical ≠ b.canonical
  -- the order of addresses, and that of texts below, is left out
  | .lt | .le | .gt | .ge | .ilike => none

/-- The operators on numbers and times. -/
def SqlOperator.onNumbers (b : ℤ) : SqlOperator → Option (ℤ → Bool)
  | .eq => some fun a => a = b
  | .ne => some fun a => a ≠ b
  | .lt => some fun a => a < b
  | .le => some fun a => a ≤ b
  | .gt => some fun a => b < a
  | .ge => some fun a => b ≤ a
  | .ilike => none

section Meaning

variable [Unicode] [LogCasts]

/-- A text as a value of a type, or an error. -/
def SqlType.cast (value : GoString) : (t : SqlType) → Option t.Value
  | .inet => LogCasts.inet value
  | .text => some value
  | .smallint => LogCasts.smallint value
  | .timestamptz => LogCasts.timestamptz value

/-- The operators on texts. -/
def SqlOperator.onTexts (b : GoString) : SqlOperator → Option (GoString → Bool)
  | .eq => some fun a => a = b
  | .ne => some fun a => a ≠ b
  | .ilike => DnsFilter.ilike b
  | .lt | .le | .gt | .ge => none

/-- What an operator says of a value of the type. -/
def SqlOperator.test (o : SqlOperator) : (t : SqlType) → t.Value → Option (t.Value → Bool)
  | .inet, b => o.onAddresses b
  | .text, b => o.onTexts b
  | .smallint, b | .timestamptz, b => o.onNumbers b

/-- The condition that compares a column with a value of its type. -/
def SqlColumn.compare (c : SqlColumn) (o : SqlOperator) (value : GoString) :
    Option (Entry → Bool) := do
  let b ← c.type.cast value
  let test ← o.test c.type b
  some fun e => test (c.value e)

/-- `1=1`, or a column, an operator and a value.  No operator takes two types. -/
def readCondition : List Word → Option (List (Entry → Bool))
  | [w] => if w = literal "1=1".toList then some [] else none
  | [left, operator, .inr (.text value) :: cast] => do
      let column ← readName SqlColumn.names left
      let operator ← readName SqlOperator.names operator
      let type ← valueType column.type cast
      if type = column.type then (column.compare operator value).map ([·]) else none
  | _ => none

/-- Conditions, joined by `AND`. -/
def readWhere (clause : Word) : Option (List (Entry → Bool)) :=
  (((clause.splitOn (.inl ' ')).splitOn (literal "AND".toList)).mapM readCondition).map
    List.flatten

end Meaning

/-! ### The clause that is sent -/

/-- The words of a condition, with its value. -/
def LogColumn.words (f : LogFilter) (c : LogColumn) : List Word :=
  [literal c.name, literal c.operator, .inr (.text (c.arg f)) :: literal c.cast]

/-- The same as one text. -/
def LogColumn.phrase (f : LogFilter) (c : LogColumn) : Word :=
  literal (c.name ++ " ".toList ++ c.operator ++ " ".toList) ++ .inr (.text (c.arg f)) ::
    literal c.cast

/-- The conditions on the given columns. -/
def groups (f : LogFilter) (cs : List LogColumn) : List (List Word) :=
  [literal "1=1".toList] :: (cs.filter fun c => c.field f ≠ []).map (LogColumn.words f)

/-- Conditions as one text. -/
def clause (gs : List (List Word)) : Word :=
  List.intercalate [.inl ' '] (List.intercalate [literal "AND".toList] gs)

theorem intercalate_append {α : Type*} (sep : List α) {ls ls' : List (List α)} (h : ls ≠ [])
    (h' : ls' ≠ []) :
    List.intercalate sep (ls ++ ls') =
      List.intercalate sep ls ++ sep ++ List.intercalate sep ls' := by
  induction ls with
  | nil => exact absurd rfl h
  | cons l ls ih =>
    cases ls with
    | nil =>
      rw [List.singleton_append, List.intercalate_cons_of_ne_nil h', List.intercalate_singleton,
        List.append_assoc]
    | cons m ls =>
      have hrest := ih (List.cons_ne_nil m ls)
      rw [List.cons_append] at hrest
      rw [List.cons_append, List.cons_append, List.intercalate_cons_cons, hrest,
        List.intercalate_cons_cons]
      simp only [List.append_assoc]

theorem groups_concat (f : LogFilter) (cs : List LogColumn) (c : LogColumn) :
    groups f (cs ++ [c]) = groups f cs ++ if c.field f ≠ [] then [c.words f] else [] := by
  unfold groups
  rw [List.filter_append, List.map_append, List.cons_append, List.filter_singleton]
  by_cases hset : c.field f = []
  · simp [hset]
  · simp [hset]

theorem joined_ne_nil (f : LogFilter) (cs : List LogColumn) :
    List.intercalate [literal "AND".toList] (groups f cs) ≠ ([] : List Word) := by
  unfold groups
  cases (cs.filter fun c => c.field f ≠ []).map (LogColumn.words f) with
  | nil => simp
  | cons g gs => simp [List.intercalate_cons_cons]

/-- One more condition. -/
theorem clause_concat (f : LogFilter) (cs : List LogColumn) (c : LogColumn) :
    clause (groups f cs ++ [c.words f]) =
      clause (groups f cs) ++ (literal " AND ".toList ++ c.phrase f) := by
  unfold clause
  rw [intercalate_append _ (by simp [groups]) (by simp), List.intercalate_singleton,
    List.append_assoc, intercalate_append _ (joined_ne_nil f cs) (by simp)]
  simp [LogColumn.words, LogColumn.phrase, List.intercalate_cons_cons, literal]

/-! ### Text and values -/

theorem reads_condition (f : LogFilter) (c : LogColumn) (n : ℕ) :
    Reads n (c.condition n) (c.phrase f) := by
  have hprefix : Literal (c.name ++ " ".toList ++ c.operator ++ " ".toList) := by
    cases c <;> decide
  have hcast : Literal c.cast ∧ Separate c.cast := by cases c <;> decide
  have hparameter : Reads n (c.name ++ " ".toList ++ c.operator ++ " ".toList ++ parameter n)
      (literal (c.name ++ " ".toList ++ c.operator ++ " ".toList) ++
        [.inr (LogArg.text (c.arg f))]) :=
    (reads_literal hprefix n).append (reads_parameter n _) (by simp) (separate_parameter n)
  have hall := hparameter.append (reads_literal hcast.1 (n + 1)) (by simp) hcast.2
  rwa [List.append_assoc (literal _), List.singleton_append] at hall

theorem separate_condition (c : LogColumn) (n : ℕ) : Separate (c.condition n) := by
  have hname : Separate c.name ∧ c.name ≠ [] := by cases c <;> decide
  simp only [LogColumn.condition, List.append_assoc]
  exact hname.1.append hname.2 _

/-- The variables of `QueryLogs` stand for the conditions on the columns so far. -/
structure LogConditions.Stand (f : LogFilter) (cs : List LogColumn) (s : LogConditions) : Prop where
  ne_nil : s.texts ≠ []
  reads : Reads 1 (List.intercalate " AND ".toList s.texts) (clause (groups f cs))
  args_eq : values (clause (groups f cs)) = s.args
  argN : s.argN = s.args.length + 1

theorem LogConditions.Stand.add {f : LogFilter} {cs : List LogColumn} {s : LogConditions}
    (h : s.Stand f cs) (c : LogColumn) : (s.add f c).Stand f (cs ++ [c]) := by
  unfold LogConditions.add
  split_ifs with hc
  · have hmore : groups f (cs ++ [c]) = groups f cs ++ [c.words f] := by
      rw [groups_concat, if_pos hc]
    have hand : Literal " AND ".toList := by decide
    have hvalue : values (literal " AND ".toList ++ c.phrase f) = [.text (c.arg f)] := by
      simp [LogColumn.phrase]
    have hcondition := (reads_literal hand s.argN).append (reads_condition f c s.argN) (by simp)
      (separate_condition c s.argN)
    refine ⟨by simp, ?_, ?_, ?_⟩
    · rw [hmore, clause_concat, intercalate_append _ h.ne_nil (by simp),
        List.intercalate_singleton, List.append_assoc]
      exact h.reads.append hcondition (by rw [h.args_eq, h.argN, Nat.add_comm])
        (Separate.append (by decide) (by decide) _)
    · rw [hmore, clause_concat, values_append, h.args_eq, hvalue]
    · simp [h.argN]
  · have hsame : groups f (cs ++ [c]) = groups f cs := by
      rw [groups_concat, if_neg hc, List.append_nil]
    refine ⟨h.ne_nil, ?_, ?_, h.argN⟩ <;> rw [hsame]
    · exact h.reads
    · exact h.args_eq

theorem stand_conditions (f : LogFilter) : f.conditions.Stand f LogColumn.all := by
  have hall : ∀ (cs cs' : List LogColumn) (s : LogConditions), s.Stand f cs →
      (cs'.foldl (LogConditions.add f) s).Stand f (cs ++ cs') := by
    intro cs cs'
    induction cs' generalizing cs with
    | nil =>
      intro s h
      rwa [List.append_nil]
    | cons c cs' ih =>
      intro s h
      have hrest := ih (cs ++ [c]) _ (h.add c)
      rwa [List.append_assoc] at hrest
  refine hall [] LogColumn.all .start ⟨by simp [LogConditions.start], ?_, ?_, rfl⟩
  · exact reads_literal (by decide) 1
  · rfl

/-! ### Meaning -/

theorem mem_intercalate {α : Type*} {x w : α} {gs : List (List α)}
    (h : w ∈ List.intercalate [x] gs) : w = x ∨ ∃ g ∈ gs, w ∈ g := by
  induction gs with
  | nil => simp at h
  | cons g gs ih =>
    cases gs with
    | nil => exact .inr ⟨g, List.mem_singleton_self g, by simpa using h⟩
    | cons g' gs =>
      rw [List.intercalate_cons_cons, List.mem_append, List.mem_append] at h
      rcases h with (h | h) | h
      · exact .inr ⟨g, List.mem_cons_self, h⟩
      · exact .inl (List.mem_singleton.1 h)
      · exact (ih h).imp_right fun ⟨g'', hmem, hw⟩ => ⟨g'', List.mem_cons_of_mem g hmem, hw⟩

/-- No word of a condition has a blank in it, or is `AND`. -/
theorem words_plain (f : LogFilter) {g : List Word} (hg : g ∈ groups f LogColumn.all) :
    (∀ w ∈ g, .inl ' ' ∉ w) ∧ literal "AND".toList ∉ g := by
  unfold groups at hg
  rcases List.mem_cons.1 hg with hg | hg
  · rw [hg, List.mem_singleton, literal_injective.eq_iff]
    refine ⟨List.forall_mem_singleton.2 ?_, by decide⟩
    rw [inl_mem_literal]
    decide
  · obtain ⟨c, -, rfl⟩ := List.mem_map.1 hg
    have hplain : ' ' ∉ c.name ∧ ' ' ∉ c.operator ∧ ' ' ∉ c.cast ∧ "AND".toList ≠ c.name ∧
        "AND".toList ≠ c.operator := by
      cases c <;> decide
    obtain ⟨hname, hoperator, hcast, hnotname, hnotoperator⟩ := hplain
    constructor
    · refine List.forall_mem_cons.2 ⟨?_, List.forall_mem_cons.2 ⟨?_,
        List.forall_mem_singleton.2 ?_⟩⟩
      · rwa [inl_mem_literal]
      · rwa [inl_mem_literal]
      · rw [List.mem_cons, inl_mem_literal, not_or]
        exact ⟨Sum.inl_ne_inr, hcast⟩
    · simp only [LogColumn.words, List.mem_cons, literal_injective.eq_iff, List.not_mem_nil,
        or_false, not_or]
      refine ⟨hnotname, hnotoperator, fun h => ?_⟩
      cases (List.cons.inj h).1

theorem readName_literal {α : Type} (names : List (String × α)) (text : List Char) :
    readName names (literal text) =
      (names.find? fun p => text = p.1.toList).map Prod.snd := by
  simp only [readName, literal_injective.eq_iff]

/-- What the name of a condition stands for. -/
def LogColumn.column : LogColumn → SqlColumn
  | .clientIP => .clientIP
  | .domain => .domain
  | .action => .action
  | .dateFrom | .dateTo => .queriedAt

/-- What the operator of a condition stands for. -/
def LogColumn.comparison : LogColumn → SqlOperator
  | .clientIP | .action => .eq
  | .domain => .ilike
  | .dateFrom => .ge
  | .dateTo => .le

section Meaning

variable [Unicode] [LogCasts]

/-- The condition of a column on its value, if the filter is set. -/
def LogColumn.meaning (value : GoString) : LogColumn → Option (Entry → Bool)
  | .clientIP => (LogCasts.inet value).map fun ip e => e.clientIP.canonical = ip.canonical
  | .domain => (ilike value).map fun found e => found e.domain
  | .action => (LogCasts.smallint value).map fun action e => e.action.toInt = action
  | .dateFrom => (LogCasts.timestamptz value).map fun t e => t ≤ e.queriedAt
  | .dateTo => (LogCasts.timestamptz value).map fun t e => e.queriedAt ≤ t

theorem compare_eq_meaning (c : LogColumn) (value : GoString) :
    c.column.compare c.comparison value = c.meaning value := by
  cases c with
  | domain => exact Option.map_eq_bind.symm
  | clientIP | action | dateFrom | dateTo =>
    simp only [LogColumn.meaning, Option.map_eq_bind]
    rfl

/-- A condition of `QueryLogs` means to the database what the filter says. -/
theorem readCondition_words (f : LogFilter) (c : LogColumn) :
    readCondition (c.words f) = (c.meaning (c.arg f)).map ([·]) := by
  have hcolumn : readName SqlColumn.names (literal c.name) = some c.column := by
    rw [readName_literal]
    cases c <;> decide +kernel
  have hoperator : readName SqlOperator.names (literal c.operator) = some c.comparison := by
    rw [readName_literal]
    cases c <;> decide +kernel
  have htype : valueType c.column.type (literal c.cast) = some c.column.type := by
    rw [valueType, readName_literal]
    cases c <;> decide +kernel
  rw [LogColumn.words, readCondition, hcolumn, hoperator]
  simp only [Option.bind_eq_bind, Option.bind_some, htype, if_pos, compare_eq_meaning]

omit [Unicode] [LogCasts] in
theorem map_flatten_cons {α : Type*} {x y : Option (List (List α))} (l : List α)
    (h : x.map List.flatten = y.map List.flatten) :
    Option.map List.flatten (do let ls ← x; pure (l :: ls)) =
      Option.map List.flatten (do let ls ← y; pure (l :: ls)) := by
  cases x with
  | none => cases y with
    | none => rfl
    | some y => cases h
  | some x => cases y with
    | none => cases h
    | some y => exact congrArg (fun z => some (l ++ z)) (Option.some.inj h)

/-- Only the columns that are filtered by have a condition. -/
theorem mapM_readCondition (f : LogFilter) (cs : List LogColumn) :
    (((cs.filter fun c => c.field f ≠ []).map (LogColumn.words f)).mapM readCondition).map
        List.flatten =
      (cs.mapM fun c => condition (c.field f) fun _ => c.meaning (c.arg f)).map List.flatten := by
  induction cs with
  | nil => rfl
  | cons c cs ih =>
    rw [List.mapM_cons, List.filter_cons, condition]
    by_cases hc : c.field f ≠ []
    · rw [if_pos hc, if_pos (by simpa using hc), List.map_cons, List.mapM_cons, readCondition_words]
      cases (c.meaning (c.arg f)).map ([·]) with
      | none => rfl
      | some conds => exact map_flatten_cons conds ih
    · rw [if_neg hc, if_neg (by simpa using hc), ih]
      cases cs.mapM fun c => condition (c.field f) fun _ => c.meaning (c.arg f) <;> rfl

/-- The meaning of a filter, column by column. -/
theorem whereClause_eq (f : LogFilter) :
    f.whereClause = (LogColumn.all.mapM fun c =>
      condition (c.field f) fun _ => c.meaning (c.arg f)).map List.flatten := by
  have hwhere : ∀ cond : LogColumn → Option (List (Entry → Bool)),
      (do
        let clientIP ← cond .clientIP
        let domain ← cond .domain
        let action ← cond .action
        let dateFrom ← cond .dateFrom
        let dateTo ← cond .dateTo
        pure (clientIP ++ domain ++ action ++ dateFrom ++ dateTo)) =
      (LogColumn.all.mapM cond).map List.flatten := by
    intro cond
    simp only [LogColumn.all, List.mapM_cons, List.mapM_nil]
    cases cond .clientIP with
    | none => rfl
    | some clientIP => cases cond .domain with
      | none => rfl
      | some domain => cases cond .action with
        | none => rfl
        | some action => cases cond .dateFrom with
          | none => rfl
          | some dateFrom => cases cond .dateTo <;> simp
  exact hwhere fun c => condition (c.field f) fun _ => c.meaning (c.arg f)

/-- The clause that is sent means what the filter says. -/
theorem readWhere_clause (f : LogFilter) :
    readWhere (clause (groups f LogColumn.all)) = f.whereClause := by
  have hblank : ∀ w ∈ List.intercalate [literal "AND".toList] (groups f LogColumn.all),
      Sum.inl ' ' ∉ w := by
    intro w hw
    rcases mem_intercalate hw with rfl | ⟨g, hg, hw⟩
    · rw [inl_mem_literal]
      decide
    · exact (words_plain f hg).1 w hw
  have hfirst : readCondition [literal "1=1".toList] = some [] := by rw [readCondition, if_pos rfl]
  rw [readWhere, clause, List.splitOn_intercalate _ hblank (joined_ne_nil f _),
    List.splitOn_intercalate _ (fun g hg => (words_plain f hg).2) (by simp [groups]), groups,
    List.mapM_cons, hfirst, whereClause_eq, ← mapM_readCondition]
  cases ((LogColumn.all.filter fun c => c.field f ≠ []).map (LogColumn.words f)).mapM
    readCondition <;> rfl

/-! ### The statements -/

omit [Unicode] [LogCasts] in
theorem bind_countQuery (f : LogFilter) : bind f.conditions.args f.countQuery =
    some (literal LogFilter.countText ++ clause (groups f LogColumn.all)) := by
  have hstand := stand_conditions f
  have hcount : Literal LogFilter.countText := by decide
  have hbind := bind_eq_some (hstand.reads.prepend hcount)
  rwa [values_append, values_literal, List.nil_append, hstand.args_eq] at hbind

omit [Unicode] [LogCasts] in
/-- The end of the second statement, with its two parameters. -/
theorem reads_page (n : ℕ) (limit offset : ℤ) :
    Reads n (LogFilter.limitText ++ (parameter n ++ (LogFilter.offsetText ++
        (parameter (n + 1) ++ LogFilter.endText))))
      (literal LogFilter.limitText ++ ([.inr (LogArg.int limit)] ++
        (literal LogFilter.offsetText ++ ([.inr (LogArg.int offset)] ++
          literal LogFilter.endText)))) := by
  have hlimit : Literal LogFilter.limitText := by decide
  have hoffset : Literal LogFilter.offsetText ∧ Separate LogFilter.offsetText := by decide
  have hend : Literal LogFilter.endText ∧ Separate LogFilter.endText := by decide
  have hlast := (reads_parameter (n + 1) (LogArg.int offset)).append
    (reads_literal hend.1 (n + 2)) (by simp) hend.2
  have hfirst := (reads_parameter n (LogArg.int limit)).append (hlast.prepend hoffset.1) (by simp)
    (hoffset.2.append (by decide) _)
  exact hfirst.prepend hlimit

omit [Unicode] [LogCasts] in
theorem bind_dataQuery (f : LogFilter) : bind f.dataArgs f.dataQuery =
    some (literal LogFilter.selectText ++ clause (groups f LogColumn.all) ++
      literal LogFilter.limitText ++ [.inr (.int f.limit)] ++ literal LogFilter.offsetText ++
      [.inr (.int f.offset)] ++ literal LogFilter.endText) := by
  have hstand := stand_conditions f
  have hselect : Literal LogFilter.selectText := by decide +kernel
  have hlimit : Separate LogFilter.limitText := by decide
  have hwhere := hstand.reads.append (reads_page f.conditions.argN f.limit f.offset)
    (by rw [hstand.args_eq, hstand.argN, Nat.add_comm]) (hlimit.append (by decide) _)
  have hbind := bind_eq_some (hwhere.prepend hselect)
  simp only [values_append, values_literal, values_value, hstand.args_eq,
    List.nil_append, List.singleton_append] at hbind
  simpa only [LogFilter.dataArgs, LogFilter.dataQuery, LogFilter.whereText, List.append_assoc,
    List.cons_append, List.nil_append] using hbind

omit [Unicode] [LogCasts] in
/-- The texts depend only on which filters are set. -/
theorem conditions_congr {f f' : LogFilter}
    (h : ∀ c : LogColumn, c.field f' = [] ↔ c.field f = []) :
    f'.conditions.texts = f.conditions.texts ∧ f'.conditions.argN = f.conditions.argN := by
  have hall : ∀ (cs : List LogColumn) (s s' : LogConditions),
      s'.texts = s.texts ∧ s'.argN = s.argN →
        (cs.foldl (LogConditions.add f') s').texts = (cs.foldl (LogConditions.add f) s).texts ∧
          (cs.foldl (LogConditions.add f') s').argN = (cs.foldl (LogConditions.add f) s).argN := by
    intro cs
    induction cs with
    | nil => exact fun s s' hs => hs
    | cons c cs ih =>
      intro s s' hs
      refine ih _ _ ?_
      unfold LogConditions.add
      simp only [ne_eq, h c]
      split_ifs
      · exact hs
      · simp only [hs, and_self]
  exact hall LogColumn.all .start .start ⟨rfl, rfl⟩

/-- **Both statements of a search bind exactly the values that are sent with them, in the places of
the filters that they come from, and their common `WHERE` clause means what the filter says.  Their
texts depend on nothing but on which filters are set.** -/
theorem logs_statements (f : LogFilter) :
    (∃ clause, readWhere clause = f.whereClause ∧
      bind f.conditions.args f.countQuery = some (literal LogFilter.countText ++ clause) ∧
      bind f.dataArgs f.dataQuery =
        some (literal LogFilter.selectText ++ clause ++ literal LogFilter.limitText ++
          [.inr (.int f.limit)] ++ literal LogFilter.offsetText ++ [.inr (.int f.offset)] ++
          literal LogFilter.endText)) ∧
    ∀ f' : LogFilter, (∀ c : LogColumn, c.field f' = [] ↔ c.field f = []) →
      f'.countQuery = f.countQuery ∧ f'.dataQuery = f.dataQuery := by
  refine ⟨⟨_, readWhere_clause f, bind_countQuery f, bind_dataQuery f⟩, fun f' h => ?_⟩
  obtain ⟨htexts, hargN⟩ := conditions_congr h
  simp only [LogFilter.countQuery, LogFilter.dataQuery, LogFilter.whereText, htexts, hargN,
    and_self]

end Meaning

/-- A search for a domain that tries to be more than a value. -/
example : LogFilter.countQuery
    { domain := "' OR 1=1 --".toList, dateTo := "2024-01-01".toList, limit := 50, offset := 0 } =
    ("SELECT COUNT(*) FROM dns_query_logs WHERE " ++
      "1=1 AND domain ILIKE $1 AND queried_at <= $2::timestamptz").toList := by
  decide +kernel

end DnsFilter
