import Gazette.Store.Schema
import Mathlib.Data.List.Infix
import Mathlib.Data.List.Nodup

/-!
# Interrupted migrations

Every statement of a migration takes effect by itself, and a migration is recorded after its last
statement. A run that is cut off therefore leaves a database in one of two ways. Between two
migrations it can be brought up to date as if nothing had happened. Within a migration, the next
run begins with the statement that was executed first, finds its table there, and fails; so do all
runs after it.
-/
namespace Gazette

namespace Statement

def table? : Statement → Option String
  | createTable name => some name
  | _ => none

def index? : Statement → Option String
  | createIndex name => some name
  | _ => none

def recorded? : Statement → Option String
  | record migration => some migration
  | _ => none

/-- Whether a statement leaves the table of applied migrations to itself. -/
def IsOwn (statement : Statement) : Prop :=
  statement ≠ createVersions ∧ statement ≠ createTable versionsTable

instance (statement : Statement) : Decidable statement.IsOwn :=
  inferInstanceAs (Decidable (_ ∧ _))

variable {statement : Statement} {name : String}

@[simp] theorem table?_eq_some : statement.table? = some name ↔ statement = createTable name := by
  cases statement <;> simp [table?]

@[simp] theorem index?_eq_some : statement.index? = some name ↔ statement = createIndex name := by
  cases statement <;> simp [index?]

@[simp] theorem recorded?_eq_some : statement.recorded? = some name ↔ statement = record name := by
  cases statement <;> simp [recorded?]

end Statement

/-- The statements of a migration and the record of it. -/
def Migration.script (m : Migration) : List Statement :=
  m.statements ++ [.record m.name]

def scriptOf (ms : List Migration) : List Statement :=
  ms.flatMap Migration.script

/-- What makes migrations fit to be applied one after the other: no two statements do the same, each
migration creates a table first, and none but the last statement of each records anything. -/
structure Orderly (ms : List Migration) : Prop where
  nodup : (scriptOf ms).Nodup
  own : ∀ statement ∈ scriptOf ms, statement.IsOwn
  first : ∀ m ∈ ms, (m.statements.head?.bind Statement.table?).isSome
  silent : ∀ m ∈ ms, m.statements.filterMap Statement.recorded? = []

theorem orderly_migrations : Orderly migrations where
  nodup := by decide +kernel
  own := by decide +kernel
  first := by decide +kernel
  silent := by decide +kernel

namespace Database

/-- The database on which some statements were executed, each for the first time. -/
def built (done : List Statement) : Database where
  tables := versionsTable :: done.filterMap Statement.table?
  indexes := done.filterMap Statement.index?
  applied := done.filterMap Statement.recorded?

variable {done rest : List Statement} {statement : Statement}

theorem execute_built (hown : statement.IsOwn) (hnew : statement ∉ done) :
    (built done).execute statement = .ok (built (done ++ [statement])) := by
  obtain ⟨hversions, htable⟩ := hown
  cases statement with
  | createVersions => exact absurd rfl hversions
  | createTable name =>
      have hname : name ≠ versionsTable := fun h => htable (h ▸ rfl)
      have hfree : name ∉ done.filterMap Statement.table? := by simpa using hnew
      simp [execute, built, hname, hfree, Statement.table?, Statement.index?, Statement.recorded?]
  | createIndex name =>
      have hfree : name ∉ done.filterMap Statement.index? := by simpa using hnew
      simp [execute, built, hfree, Statement.table?, Statement.index?, Statement.recorded?]
  | record name =>
      have hfree : name ∉ done.filterMap Statement.recorded? := by simpa using hnew
      simp [execute, built, hfree, Statement.table?, Statement.index?, Statement.recorded?]

theorem executeAll_built (hnodup : (done ++ rest).Nodup) (hown : ∀ s ∈ rest, s.IsOwn) :
    executeAll rest (built done) = (none, built (done ++ rest)) := by
  induction rest generalizing done with
  | nil => rw [List.append_nil, executeAll]
  | cons statement rest ih =>
      obtain ⟨hfirst, hrest⟩ := List.forall_mem_cons.1 hown
      have hnew : statement ∉ done := fun h =>
        (List.nodup_append.1 hnodup).2.2 statement h statement List.mem_cons_self rfl
      rw [executeAll, execute_built hfirst hnew]
      rw [← List.singleton_append, ← List.append_assoc] at hnodup
      simpa using ih hnodup hrest

end Database

/-- Where a run of migrations may be cut off: between two of them, or after some statements of
one. -/
inductive IsCut (ms : List Migration) : List Statement → Prop
  | between (first rest : List Migration) (h : ms = first ++ rest) : IsCut ms (scriptOf first)
  | within (first : List Migration) (m : Migration) (rest : List Migration)
      (part : List Statement) (h : ms = first ++ m :: rest) (hne : part ≠ [])
      (hpart : part <+: m.statements) : IsCut ms (scriptOf first ++ part)

variable {ms first rest : List Migration} {m : Migration} {part : List Statement}

theorem scriptOf_cons (m : Migration) (ms : List Migration) :
    scriptOf (m :: ms) = m.script ++ scriptOf ms :=
  List.flatMap_cons

theorem scriptOf_append (first rest : List Migration) :
    scriptOf (first ++ rest) = scriptOf first ++ scriptOf rest :=
  List.flatMap_append

theorem IsCut.append_left (first : List Migration) {done : List Statement} (h : IsCut rest done) :
    IsCut (first ++ rest) (scriptOf first ++ done) := by
  cases h with
  | between next others h =>
      rw [← scriptOf_append]
      exact .between _ others (by rw [h, List.append_assoc])
  | within next m others part h hne hpart =>
      rw [← List.append_assoc, ← scriptOf_append]
      exact .within _ m others part (by rw [h, List.append_assoc]) hne hpart

/-- However many statements are executed, the run is cut off somewhere. -/
theorem isCut_take (ms : List Migration) (n : Nat) : IsCut ms ((scriptOf ms).take n) := by
  induction ms generalizing n with
  | nil =>
      rw [scriptOf, List.flatMap_nil, List.take_nil]
      exact .between [] [] rfl
  | cons m ms ih =>
      rw [scriptOf_cons]
      rcases Nat.lt_or_ge n m.script.length with hlt | hge
      · have hle : n ≤ m.statements.length := by
          simpa [Migration.script, Nat.lt_succ_iff] using hlt
        rw [List.take_append_of_le_length hlt.le, Migration.script,
          List.take_append_of_le_length hle]
        cases hpart : m.statements.take n with
        | nil => exact .between [] (m :: ms) rfl
        | cons statement part =>
            refine .within [] m ms _ rfl (List.cons_ne_nil _ _) ?_
            exact hpart ▸ List.take_prefix n m.statements
      · obtain ⟨k, rfl⟩ := Nat.exists_eq_add_of_le hge
        rw [List.take_length_add_append]
        simpa [scriptOf] using (ih k).append_left [m]

theorem recorded_scriptOf (h : ∀ m ∈ ms, m.statements.filterMap Statement.recorded? = []) :
    (scriptOf ms).filterMap Statement.recorded? = ms.map (·.name) := by
  induction ms with
  | nil => rfl
  | cons m ms ih =>
      obtain ⟨hm, hms⟩ := List.forall_mem_cons.1 h
      rw [scriptOf_cons, List.filterMap_append, ih hms, Migration.script, List.filterMap_append, hm]
      rfl

theorem Orderly.names_nodup (h : Orderly ms) : (ms.map (·.name)).Nodup := by
  rw [← recorded_scriptOf h.silent]
  refine h.nodup.filterMap fun statement other name hname hother => ?_
  rw [Statement.recorded?_eq_some.1 hname, Statement.recorded?_eq_some.1 hother]

namespace Database

def pending (ms : List Migration) (db : Database) : List Migration :=
  ms.filter fun m => !db.applied.contains m.name

theorem plan_eq (db : Database) :
    db.plan = .createVersions :: scriptOf (pending migrations db) := rfl

/-- The migrations that were executed to their end are recorded, and no others. -/
theorem pending_built (h : Orderly (first ++ rest))
    (hpart : part.filterMap Statement.recorded? = []) :
    pending (first ++ rest) (built (scriptOf first ++ part)) = rest := by
  have happlied : (built (scriptOf first ++ part)).applied = first.map (·.name) := by
    have hsilent : ∀ m ∈ first, m.statements.filterMap Statement.recorded? = [] :=
      fun m hm => h.silent m (List.mem_append_left _ hm)
    show (scriptOf first ++ part).filterMap Statement.recorded? = _
    rw [List.filterMap_append, hpart, recorded_scriptOf hsilent, List.append_nil]
  have hnames := h.names_nodup
  rw [List.map_append, List.nodup_append] at hnames
  rw [pending, happlied, List.filter_append, List.filter_eq_nil_iff.2, List.filter_eq_self.2,
    List.nil_append]
  · intro m hm
    have hnew : m.name ∉ first.map (·.name) := fun hmem =>
      hnames.2.2 m.name hmem m.name (List.mem_map_of_mem hm) rfl
    simpa using hnew
  · intro m hm
    have hold : m.name ∈ first.map (·.name) := List.mem_map_of_mem hm
    simpa using hold

theorem executeAll_createVersions (done statements : List Statement) :
    executeAll (.createVersions :: statements) (built done) =
      executeAll statements (built done) := by
  simp [executeAll, execute, built]

theorem executeAll_between (h : Orderly (first ++ rest)) (n : Nat) :
    executeAll (.createVersions :: (scriptOf rest).take n) (built (scriptOf first)) =
      (none, built (scriptOf first ++ (scriptOf rest).take n)) := by
  have hbegins : scriptOf first ++ (scriptOf rest).take n <+: scriptOf (first ++ rest) := by
    rw [scriptOf_append]
    exact (List.prefix_append_right_inj _).2 (List.take_prefix n _)
  have hown : ∀ s ∈ (scriptOf rest).take n, s.IsOwn := fun s hs =>
    h.own s (hbegins.subset (List.mem_append_right _ hs))
  rw [executeAll_createVersions]
  exact executeAll_built (h.nodup.sublist hbegins.sublist) hown

/-- Within a migration, every run fails at once: the table that the migration begins with is
there. -/
theorem executeAll_within (h : Orderly (first ++ m :: rest)) (hne : part ≠ [])
    (hpart : part <+: m.statements) :
    ∃ table, .createTable table ∈ part ∧ ∀ n,
      executeAll (Statement.createVersions :: (scriptOf (m :: rest)).take (n + 1))
          (built (scriptOf first ++ part)) =
        (some (.tableExists table), built (scriptOf first ++ part)) := by
  have hfirst := h.first m (List.mem_append_right _ List.mem_cons_self)
  cases part with
  | nil => exact absurd rfl hne
  | cons statement part =>
      obtain ⟨others, hstatements⟩ := hpart
      rw [← hstatements] at hfirst
      obtain ⟨table, htable⟩ := Option.isSome_iff_exists.1 hfirst
      obtain rfl : statement = .createTable table := by simpa using htable
      refine ⟨table, List.mem_cons_self, fun n => ?_⟩
      have hfails : (built (scriptOf first ++ .createTable table :: part)).execute
          (.createTable table) = .error (.tableExists table) := by
        simp [execute, built, Statement.table?]
      rw [executeAll_createVersions, scriptOf_cons, Migration.script, ← hstatements]
      simp only [List.cons_append, List.take_succ_cons, executeAll, hfails]

/-- The databases that runs lead to from an empty file, each run cut off after some statements or
not at all. -/
inductive Reached : Database → Prop
  | empty : Reached {}
  | run {db : Database} (statements : Nat) (h : Reached db) : Reached (db.migrateFor statements).2

/-- Whether a database holds a table of a migration that is not recorded. -/
def HasRemains (db : Database) : Prop :=
  ∃ m ∈ pending migrations db, ∃ table, .createTable table ∈ m.statements ∧ table ∈ db.tables

variable {db : Database}

theorem migrateFor_succ (n : Nat) (db : Database) :
    db.migrateFor (n + 1) =
      executeAll (.createVersions :: (scriptOf (pending migrations db)).take n) db := rfl

theorem migrate_eq (db : Database) :
    db.migrate = db.migrateFor ((scriptOf (pending migrations db)).length + 1) := by
  rw [migrateFor_succ, List.take_length]
  rfl

theorem migrateFor_empty (n : Nat) :
    ({} : Database).migrateFor (n + 1) = (none, built ((scriptOf migrations).take n)) :=
  @executeAll_between [] migrations orderly_migrations n

theorem pending_between (h : migrations = first ++ rest) :
    pending migrations (built (scriptOf first)) = rest := by
  have hpending := @pending_built first rest [] (h ▸ orderly_migrations) rfl
  rwa [List.append_nil, ← h] at hpending

theorem migrateFor_between (h : migrations = first ++ rest) (n : Nat) :
    (built (scriptOf first)).migrateFor (n + 1) =
      (none, built (scriptOf first ++ (scriptOf rest).take n)) := by
  rw [migrateFor_succ, pending_between h, executeAll_between (h ▸ orderly_migrations)]

theorem migrateFor_within (h : migrations = first ++ m :: rest) (hne : part ≠ [])
    (hpart : part <+: m.statements) :
    m ∈ pending migrations (built (scriptOf first ++ part)) ∧
      ∃ table, .createTable table ∈ part ∧
        (built (scriptOf first ++ part)).migrate =
          (some (.tableExists table), built (scriptOf first ++ part)) ∧
        ∀ n, ((built (scriptOf first ++ part)).migrateFor n).2 =
          built (scriptOf first ++ part) := by
  have horderly : Orderly (first ++ m :: rest) := h ▸ orderly_migrations
  have hsilent : part.filterMap Statement.recorded? = [] := by
    have hm := horderly.silent m (List.mem_append_right _ List.mem_cons_self)
    exact List.prefix_nil.1 (hm ▸ hpart.filterMap Statement.recorded?)
  have hpending := pending_built horderly hsilent
  rw [← h] at hpending
  obtain ⟨table, hmem, hfails⟩ := executeAll_within horderly hne hpart
  have hlater : ∀ n, (built (scriptOf first ++ part)).migrateFor (n + 2) =
      (some (.tableExists table), built (scriptOf first ++ part)) := by
    intro n
    rw [migrateFor_succ, hpending, hfails]
  refine ⟨hpending ▸ List.mem_cons_self, table, hmem, ?_, fun n => ?_⟩
  · have hsome : (scriptOf (m :: rest)).length ≠ 0 := by
      simp [scriptOf_cons, Migration.script]
    obtain ⟨n, hn⟩ := Nat.exists_eq_succ_of_ne_zero hsome
    rw [migrate_eq, hpending, hn, hlater]
  · match n with
    | 0 => rfl
    | 1 =>
        rw [migrateFor_succ, List.take_zero, executeAll_createVersions]
        rfl
    | n + 2 => rw [hlater]

/-- The databases that are reached are those of the cuts, besides the empty one. -/
theorem Reached.isCut (h : db.Reached) :
    db = {} ∨ ∃ done, IsCut migrations done ∧ db = built done := by
  induction h with
  | empty => exact .inl rfl
  | @run db n _ ih =>
      cases n with
      | zero => exact ih
      | succ n =>
          refine .inr ?_
          rcases ih with rfl | ⟨done, hcut, rfl⟩
          · exact ⟨_, isCut_take migrations n, congrArg Prod.snd (migrateFor_empty n)⟩
          · cases hcut with
            | between first rest h =>
                have hmore := (isCut_take rest n).append_left first
                rw [← h] at hmore
                exact ⟨_, hmore, congrArg Prod.snd (migrateFor_between h n)⟩
            | within first m rest part h hne hpart =>
                obtain ⟨-, _, -, -, hstays⟩ := migrateFor_within h hne hpart
                exact ⟨_, .within first m rest part h hne hpart, hstays _⟩

theorem fresh_eq : fresh = built (scriptOf migrations) := by
  rw [fresh, migrate_eq, migrateFor_empty]
  exact congrArg built (List.take_length)

/-- Between two migrations nothing is left of one that is not recorded. -/
theorem not_hasRemains_between (h : migrations = first ++ rest) :
    ¬ (built (scriptOf first)).HasRemains := by
  have horderly : Orderly (first ++ rest) := h ▸ orderly_migrations
  rintro ⟨m, hm, table, hcreates, hthere⟩
  rw [pending_between h] at hm
  have hlater : .createTable table ∈ scriptOf rest :=
    List.mem_flatMap.2 ⟨m, hm, List.mem_append_left _ hcreates⟩
  have hown : Statement.IsOwn (.createTable table) := by
    refine horderly.own _ ?_
    rw [scriptOf_append]
    exact List.mem_append_right _ hlater
  rcases List.mem_cons.1 hthere with rfl | hthere
  · exact hown.2 rfl
  · have hdone : .createTable table ∈ scriptOf first := by simpa using hthere
    have hnodup := horderly.nodup
    rw [scriptOf_append] at hnodup
    exact (List.nodup_append.1 hnodup).2.2 _ hdone _ hlater rfl

/-- A database that was cut off between two migrations is brought up to date. -/
theorem migrate_between (h : migrations = first ++ rest) :
    (built (scriptOf first)).migrate = (none, fresh) := by
  rw [migrate_eq, pending_between h, migrateFor_between h, List.take_length, ← scriptOf_append,
    ← h, fresh_eq]

/-- A database on which every migration is recorded stays as it is, whatever it holds. -/
theorem migrate_of_applied (hversions : versionsTable ∈ db.tables)
    (happlied : ∀ m ∈ migrations, m.name ∈ db.applied) : db.migrate = (none, db) := by
  have hpending : pending migrations db = [] := by
    rw [pending, List.filter_eq_nil_iff]
    intro m hm
    simpa using happlied m hm
  rw [migrate, plan_eq, hpending]
  simp [scriptOf, executeAll, execute, hversions]

end Database

/-- However often runs were cut off: a further run that is not cut off brings the database up to
date exactly if no table is left of a migration that is not recorded. It is then the database that
one run makes of an empty file, with every migration recorded once. Otherwise the run finds such a
table and fails, and no run ever changes the database again. A database that is up to date keeps
its data. -/
theorem migrations_recover_iff {db : Database} (h : db.Reached) :
    (¬ db.HasRemains ∧ db.migrate = (none, Database.fresh) ∨
      db.HasRemains ∧ ∃ table, db.migrate = (some (.tableExists table), db) ∧
        ∀ statements, (db.migrateFor statements).2 = db) ∧
      Database.fresh.applied = migrations.map (·.name) ∧ Database.fresh.applied.Nodup ∧
      ∀ store, { Database.fresh with store := store }.migrate =
        (none, { Database.fresh with store := store }) := by
  have happlied : Database.fresh.applied = migrations.map (·.name) := by
    rw [Database.fresh_eq]
    exact recorded_scriptOf orderly_migrations.silent
  refine ⟨?_, happlied, happlied ▸ orderly_migrations.names_nodup, fun store => ?_⟩
  · rcases h.isCut with rfl | ⟨done, hcut, rfl⟩
    · refine .inl ⟨?_, rfl⟩
      rintro ⟨_, -, _, -, hthere⟩
      cases hthere
    · cases hcut with
      | between first rest hcut =>
          exact .inl ⟨Database.not_hasRemains_between hcut, Database.migrate_between hcut⟩
      | within first m rest part hcut hne hpart =>
          obtain ⟨hm, table, hmem, hfails, hstays⟩ := Database.migrateFor_within hcut hne hpart
          refine .inr ⟨⟨m, hm, table, hpart.subset hmem, ?_⟩, table, hfails, hstays⟩
          have hthere : table ∈ (scriptOf first ++ part).filterMap Statement.table? := by
            simp [hmem]
          exact List.mem_cons_of_mem _ hthere
  · refine Database.migrate_of_applied ?_ fun m hm => ?_
    · rw [Database.fresh_eq]
      exact List.mem_cons_self
    · exact happlied ▸ List.mem_map_of_mem hm

/-- A run that is cut off in the second migration leaves a database for good that is not up to
date. -/
theorem migrations_stuck_in_content :
    (Database.migrateFor 6 {}).2.Reached ∧ (Database.migrateFor 6 {}).2.HasRemains ∧
      ∃ table, (Database.migrateFor 6 {}).2.migrate =
          (some (.tableExists table), (Database.migrateFor 6 {}).2) ∧
        ∀ statements, ((Database.migrateFor 6 {}).2.migrateFor statements).2 =
          (Database.migrateFor 6 {}).2 := by
  have hreached := Database.Reached.run 6 .empty
  rcases (migrations_recover_iff hreached).1 with ⟨-, hdone⟩ | hstuck
  · exact absurd hdone (by decide +kernel)
  · exact ⟨hreached, hstuck⟩

/-- A run that is cut off after the table of users leaves a database that no run brings up to
date. -/
theorem migration_fails_after_users :
    (Database.migrateFor 2 {}).2.Reached ∧ (Database.migrateFor 2 {}).2.applied = [] ∧
      (Database.migrateFor 2 {}).2.migrate =
        (some (.tableExists "users"), (Database.migrateFor 2 {}).2) :=
  ⟨.run 2 .empty, by decide +kernel⟩

end Gazette
