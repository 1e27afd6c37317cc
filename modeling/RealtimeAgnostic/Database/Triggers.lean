import RealtimeAgnostic.Library.Table

/-! # The triggers of a PostgreSQL database

A script creates the trigger function and puts a trigger on its table. Triggers belong to their
table; functions belong to the database, and a trigger calls the function that bears the name
when the row changes.
-/

namespace RealtimeAgnostic

namespace Postgres

def functionSql (name channel : String) : String :=
  "
CREATE OR REPLACE FUNCTION " ++ name ++ "() RETURNS trigger AS $$
DECLARE
  payload json;
BEGIN
  payload = json_build_object(
    'table', TG_TABLE_NAME,
    'schema', TG_TABLE_SCHEMA,
    'operation', TG_OP,
    'data', CASE
      WHEN TG_OP = 'DELETE' THEN row_to_json(OLD)
      ELSE row_to_json(NEW)
    END,
    'old_data', CASE
      WHEN TG_OP = 'UPDATE' THEN row_to_json(OLD)
      ELSE NULL
    END
  );
  PERFORM pg_notify('" ++ channel ++ "', payload::text);
  RETURN NEW;
END;
$$ LANGUAGE plpgsql;"

def notifyFunctionSql (channel : String) : String := functionSql "realtime_notify" channel

def triggerDdl (table : String) : String :=
  "\nDROP TRIGGER IF EXISTS " ++ table ++ "_realtime" ++ " ON " ++ table ++ ";" ++
    "\nCREATE TRIGGER " ++ table ++ "_realtime" ++
    "\n  AFTER INSERT OR UPDATE OR DELETE ON " ++ table ++
    "\n  FOR EACH ROW EXECUTE FUNCTION " ++ "realtime_notify" ++ "();\n"

def generateTriggerSql (table channel : String) : String :=
  notifyFunctionSql channel ++ "\n" ++ triggerDdl table

/-! ## What the scripts mean -/

/-- A trigger function is known by the channel that its body notifies. -/
inductive Statement where
  | createOrReplaceFunction (name channel : String)
  | dropTriggerIfExists (name table : String)
  | createTrigger (name table function : String)
deriving DecidableEq

def dropTriggerSql (name table : String) : String :=
  "\nDROP TRIGGER IF EXISTS " ++ name ++ " ON " ++ table ++ ";"

def createTriggerSql (name table function : String) : String :=
  "\nCREATE TRIGGER " ++ name ++ "\n  AFTER INSERT OR UPDATE OR DELETE ON " ++ table ++
    "\n  FOR EACH ROW EXECUTE FUNCTION " ++ function ++ "();\n"

/-- The statement as text. -/
def Statement.sql : Statement → String
  | .createOrReplaceFunction name channel => functionSql name channel
  | .dropTriggerIfExists name table => "\n" ++ dropTriggerSql name table
  | .createTrigger name table function => createTriggerSql name table function

def triggerName (table : String) : String := table ++ "_realtime"

def script (table channel : String) : List Statement :=
  [.createOrReplaceFunction "realtime_notify" channel, .dropTriggerIfExists (triggerName table) table,
    .createTrigger (triggerName table) table "realtime_notify"]

theorem triggerDdl_eq (table : String) :
    triggerDdl table = dropTriggerSql (triggerName table) table ++
      createTriggerSql (triggerName table) table "realtime_notify" := by
  unfold triggerDdl dropTriggerSql createTriggerSql triggerName
  simp only [String.append_assoc]

/-- The text that the generator returns says these statements. -/
theorem generateTriggerSql_eq (table channel : String) :
    generateTriggerSql table channel = String.join ((script table channel).map Statement.sql) := by
  simp only [generateTriggerSql, notifyFunctionSql, triggerDdl_eq, script, List.map_cons,
    List.map_nil, Statement.sql, String.join_cons, String.join_nil, String.append_empty,
    String.append_assoc]

/-! ## The database

`fold` is how the server resolves an unquoted identifier. A trigger's name need only be unique
on its table.
-/

structure Trigger where
  name : String
  table : String
  function : String
deriving DecidableEq

/-- `functions` gives a trigger function's channel. -/
structure Catalog where
  tables : List String
  functions : Table String String
  triggers : List Trigger

/-- The channels that a row change on the table notifies. -/
def Catalog.notified (db : Catalog) (table : String) : List String :=
  (db.triggers.filter fun t => t.table = table).filterMap fun t => db.functions.lookup t.function

variable (fold : String → String)

def Catalog.exec (db : Catalog) : Statement → Option Catalog
  | .createOrReplaceFunction name channel =>
    some { db with functions := db.functions.insert (fold name) channel }
  | .dropTriggerIfExists name table =>
    some { db with
      triggers := db.triggers.filter fun t => ¬(t.table = fold table ∧ t.name = fold name) }
  | .createTrigger name table function =>
    if fold table ∈ db.tables ∧ (db.functions.lookup (fold function)).isSome ∧
        ∀ t ∈ db.triggers, ¬(t.table = fold table ∧ t.name = fold name) then
      some { db with triggers := db.triggers ++ [⟨fold name, fold table, fold function⟩] }
    else none

/-- A statement that fails ends the script. -/
def Catalog.execScript (db : Catalog) : List Statement → Option Catalog
  | [] => some db
  | st :: rest => (db.exec fold st).bind fun db' => db'.execScript rest

/-- The texts are executed one after another; `read` is the server's parser. -/
def Catalog.execTexts (read : String → Option (List Statement)) (db : Catalog) :
    List String → Option Catalog
  | [] => some db
  | text :: rest =>
    (read text).bind fun sts => (db.execScript fold sts).bind fun db' => db'.execTexts read rest

/-! ## One script -/

def trigger (table : String) : Trigger :=
  ⟨fold (triggerName table), fold table, fold "realtime_notify"⟩

/-- What one script leaves. -/
def Catalog.installed (db : Catalog) (table channel : String) : Catalog where
  tables := db.tables
  functions := db.functions.insert (fold "realtime_notify") channel
  triggers :=
    (db.triggers.filter fun t => ¬(t.table = fold table ∧ t.name = fold (triggerName table))) ++
      [trigger fold table]

theorem execScript_script {db : Catalog} {table : String} (hTable : fold table ∈ db.tables)
    (channel : String) :
    db.execScript fold (script table channel) = some (db.installed fold table channel) := by
  simp only [script, Catalog.execScript, Catalog.exec, Option.bind_some]
  rw [if_pos]
  · rfl
  · refine ⟨hTable, by simp, fun t hMem hSame => ?_⟩
    have hKept := (List.mem_filter.mp hMem).2
    simp only [decide_eq_true_eq] at hKept
    exact hKept hSame

/-- The database has only the generated trigger, if any, on the table. -/
def Catalog.Own (db : Catalog) (table : String) : Prop :=
  ∀ t ∈ db.triggers, t.table = fold table → t.name = fold (triggerName table)

variable {fold} {db : Catalog} {table other channel : String}

theorem own_installed (hDistinct : fold other ≠ fold table) (h : db.Own fold other) :
    (db.installed fold table channel).Own fold other := by
  intro t hMem hTable
  rcases List.mem_append.mp hMem with hOld | hNew
  · exact h t (List.mem_filter.mp hOld).1 hTable
  · rw [List.mem_singleton.mp hNew] at hTable
    exact absurd hTable.symm hDistinct

theorem triggersOn_installed (h : db.Own fold table) :
    ((db.installed fold table channel).triggers.filter fun t => t.table = fold table) =
      [trigger fold table] := by
  have hNone : ((db.triggers.filter fun t =>
      ¬(t.table = fold table ∧ t.name = fold (triggerName table))).filter
        fun t => t.table = fold table) = [] := by
    rw [List.filter_eq_nil_iff]
    intro t hMem hTable
    obtain ⟨hOld, hKept⟩ := List.mem_filter.mp hMem
    simp only [decide_eq_true_eq] at hTable hKept
    exact hKept ⟨hTable, h t hOld hTable⟩
  rw [Catalog.installed, List.filter_append, hNone, List.nil_append]
  simp [trigger]

theorem triggersOn_installed_ne (hDistinct : fold other ≠ fold table) :
    ((db.installed fold table channel).triggers.filter fun t => t.table = fold other) =
      db.triggers.filter fun t => t.table = fold other := by
  have hNew : ([trigger fold table].filter fun t => t.table = fold other) = [] := by
    simp [trigger, hDistinct.symm]
  rw [Catalog.installed, List.filter_append, hNew, List.append_nil, List.filter_filter]
  refine List.filter_congr fun t _ => ?_
  by_cases hTable : t.table = fold other
  · simp [hTable, hDistinct]
  · simp [hTable]

/-! ## All the scripts -/

variable (fold) in
def Catalog.installedAll (db : Catalog) (order : List (String × String)) : Catalog :=
  order.foldl (fun db p => db.installed fold p.1 p.2) db

theorem execTexts_eq {read : String → Option (List Statement)} {order : List (String × String)}
    (hTables : ∀ p ∈ order, fold p.1 ∈ db.tables)
    (hRead : ∀ p ∈ order, read (generateTriggerSql p.1 p.2) = some (script p.1 p.2)) :
    db.execTexts fold read (order.map fun p => generateTriggerSql p.1 p.2) =
      some (db.installedAll fold order) := by
  induction order generalizing db with
  | nil => rfl
  | cons p rest ih =>
    rw [List.map_cons, Catalog.execTexts, hRead p List.mem_cons_self, Option.bind_some,
      execScript_script fold (hTables p List.mem_cons_self), Option.bind_some]
    exact ih (fun q hMem => hTables q (List.mem_cons_of_mem p hMem))
      (fun q hMem => hRead q (List.mem_cons_of_mem p hMem))

theorem triggersOn_installedAll_ne {order : List (String × String)}
    (hDistinct : ∀ p ∈ order, fold other ≠ fold p.1) :
    ((db.installedAll fold order).triggers.filter fun t => t.table = fold other) =
      db.triggers.filter fun t => t.table = fold other := by
  induction order generalizing db with
  | nil => rfl
  | cons p rest ih =>
    exact (ih fun q hMem => hDistinct q (List.mem_cons_of_mem p hMem)).trans
      (triggersOn_installed_ne (hDistinct p List.mem_cons_self))

/-- Whatever the order, each table ends with its one trigger on the shared function. -/
theorem triggersOn_installedAll {order : List (String × String)}
    (hNodup : (order.map fun p => fold p.1).Nodup) (hOwn : ∀ p ∈ order, db.Own fold p.1)
    {p : String × String} (hMem : p ∈ order) :
    ((db.installedAll fold order).triggers.filter fun t => t.table = fold p.1) =
      [trigger fold p.1] := by
  induction order generalizing db with
  | nil => cases hMem
  | cons q rest ih =>
    rw [List.map_cons, List.nodup_cons] at hNodup
    have hRest : ∀ r ∈ rest, fold q.1 ≠ fold r.1 := fun r hIn hSame =>
      hNodup.1 (List.mem_map.mpr ⟨r, hIn, hSame.symm⟩)
    rcases List.mem_cons.mp hMem with rfl | hIn
    · exact (triggersOn_installedAll_ne hRest).trans
        (triggersOn_installed (hOwn p List.mem_cons_self))
    · refine ih hNodup.2 (fun r hIn => ?_) hIn
      exact own_installed (hRest r hIn).symm (hOwn r (List.mem_cons_of_mem q hIn))

/-- The last script's channel is the one that every trigger then notifies. -/
theorem notified_installedAll {init : List (String × String)} {last p : String × String}
    (hNodup : ((init ++ [last]).map fun p => fold p.1).Nodup)
    (hOwn : ∀ p ∈ init ++ [last], db.Own fold p.1) (hMem : p ∈ init ++ [last]) :
    (db.installedAll fold (init ++ [last])).notified (fold p.1) = [last.2] := by
  have hFunction : (db.installedAll fold (init ++ [last])).functions.lookup
      (fold "realtime_notify") = some last.2 := by
    rw [Catalog.installedAll, List.foldl_append]
    exact AList.lookup_insert _
  rw [Catalog.notified, triggersOn_installedAll hNodup hOwn hMem, List.filterMap_cons,
    List.filterMap_nil]
  simp only [trigger, hFunction]

/-- Executed in any order, the scripts leave every table on its own channel exactly when they all
name one channel. -/
theorem scripts_keep_channels_iff (fold : String → String)
    (read : String → Option (List Statement)) (db : Catalog) (pairs : List (String × String))
    (hNodup : (pairs.map fun p => fold p.1).Nodup) (hTables : ∀ p ∈ pairs, fold p.1 ∈ db.tables)
    (hOwn : ∀ p ∈ pairs, db.Own fold p.1)
    (hRead : ∀ p ∈ pairs, read (generateTriggerSql p.1 p.2) = some (script p.1 p.2)) :
    (∀ order : List (String × String), order.Perm pairs →
        ∃ db', db.execTexts fold read (order.map fun p => generateTriggerSql p.1 p.2) = some db' ∧
          ∀ p ∈ pairs, db'.notified (fold p.1) = [p.2]) ↔
      ∀ p ∈ pairs, ∀ q ∈ pairs, p.2 = q.2 := by
  have hRun : ∀ (init : List (String × String)) (last p : String × String),
      (init ++ [last]).Perm pairs → p ∈ pairs →
        db.execTexts fold read ((init ++ [last]).map fun p => generateTriggerSql p.1 p.2) =
            some (db.installedAll fold (init ++ [last])) ∧
          (db.installedAll fold (init ++ [last])).notified (fold p.1) = [last.2] := by
    intro init last p hPerm hMem
    refine ⟨execTexts_eq (fun q hIn => hTables q (hPerm.mem_iff.mp hIn))
      (fun q hIn => hRead q (hPerm.mem_iff.mp hIn)), ?_⟩
    exact notified_installedAll ((hPerm.map fun p => fold p.1).nodup_iff.mpr hNodup)
      (fun q hIn => hOwn q (hPerm.mem_iff.mp hIn)) (hPerm.mem_iff.mpr hMem)
  constructor
  · -- the order that ends with `q` puts every table on `q`'s channel
    intro hKeep p hP q hQ
    have hPerm : (pairs.erase q ++ [q]).Perm pairs :=
      (List.perm_append_singleton q _).trans (List.perm_cons_erase hQ).symm
    obtain ⟨db', hExec, hNotified⟩ := hKeep _ hPerm
    obtain ⟨hExec', hLast⟩ := hRun _ q p hPerm hP
    rw [hExec', Option.some.injEq] at hExec
    rw [← hExec] at hNotified
    exact List.singleton_injective ((hNotified p hP).symm.trans hLast)
  · intro hSame order hPerm
    rcases List.eq_nil_or_concat' order with rfl | ⟨init, last, rfl⟩
    · exact ⟨db, rfl, fun p hP => absurd (hPerm.mem_iff.mpr hP) List.not_mem_nil⟩
    · have hLast : last ∈ pairs := hPerm.mem_iff.mp (List.mem_append_right init List.mem_cons_self)
      refine ⟨_, (hRun init last last hPerm hLast).1, fun p hP => ?_⟩
      rw [(hRun init last p hPerm hP).2, hSame p hP last hLast]

theorem length_generateTriggerSql (table channel : String) :
    (generateTriggerSql table channel).length =
      (generateTriggerSql "" "").length + 4 * table.length + channel.length := by
  unfold generateTriggerSql notifyFunctionSql functionSql triggerDdl
  simp only [String.length_append, String.length_empty]
  omega

/-- A parser that knows the generated texts of some pairs. -/
def readAmong (pairs : List (String × String)) (text : String) : Option (List Statement) :=
  (pairs.find? fun p => generateTriggerSql p.1 p.2 = text).map fun p => script p.1 p.2

def shopPairs : List (String × String) := [("orders", "a"), ("users", "b")]

def shopTables : Catalog := ⟨["orders", "users"], ∅, []⟩

theorem readAmong_shopPairs :
    ∀ p ∈ shopPairs, readAmong shopPairs (generateTriggerSql p.1 p.2) = some (script p.1 p.2) := by
  have hApart : generateTriggerSql "orders" "a" ≠ generateTriggerSql "users" "b" := by
    intro hSame
    have hLength := congrArg String.length hSame
    rw [length_generateTriggerSql, length_generateTriggerSql "users"] at hLength
    have hOrders : "orders".length = 6 ∧ "users".length = 5 := by decide
    have hChannels : "a".length = 1 ∧ "b".length = 1 := by decide
    omega
  intro p hMem
  rcases List.mem_cons.mp hMem with rfl | hMem
  · simp [readAmong, shopPairs]
  · rw [List.mem_singleton.mp hMem]
    simp [readAmong, shopPairs, hApart]

theorem scripts_keep_channels_shop :
    (∀ order : List (String × String), order.Perm shopPairs →
      ∃ db', shopTables.execTexts id (readAmong shopPairs)
          (order.map fun p => generateTriggerSql p.1 p.2) = some db' ∧
        ∀ p ∈ shopPairs, db'.notified (id p.1) = [p.2]) ↔
      ∀ p ∈ shopPairs, ∀ q ∈ shopPairs, p.2 = q.2 :=
  scripts_keep_channels_iff id (readAmong shopPairs) shopTables shopPairs (by decide) (by decide)
    (fun _ _ _ hMem => absurd hMem List.not_mem_nil) readAmong_shopPairs

/-- The script for `users` redirects the changes of `orders`. -/
theorem second_script_takes_channel :
    (shopTables.execTexts id (readAmong shopPairs)
        (shopPairs.map fun p => generateTriggerSql p.1 p.2)).map
      (fun db => (db.notified "orders", db.notified "users")) = some (["b"], ["b"]) := by
  rw [execTexts_eq (by decide) readAmong_shopPairs, Option.map_some]
  decide

end Postgres

end RealtimeAgnostic
