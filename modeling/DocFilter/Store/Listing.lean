import DocFilter.Store.TableName

/-!
Listings: the tables that a store makes up itself.

A statement can read them like other tables, but no column of theirs is a key or a document, so all
that can be asked is how many rows there are. They take no rows. A table that is made under the name
of a listing hides it.
-/

namespace DocFilter

/-- A listing: the name that its refusals show, and its number of rows. -/
structure Listing where
  name : String
  size : Except StoreFault Nat

namespace Listing

/-- The settings and measures of a database, each of which is listed as one row. -/
def settings : List String := [
  "analysis_limit", "application_id", "auto_vacuum", "automatic_index", "busy_timeout",
  "cache_size", "cache_spill", "cell_size_check", "checkpoint_fullfsync", "count_changes",
  "data_version", "default_cache_size", "defer_foreign_keys", "empty_result_callbacks",
  "encoding", "foreign_keys", "freelist_count", "full_column_names", "fullfsync",
  "hard_heap_limit", "ignore_check_constraints", "journal_mode", "journal_size_limit",
  "legacy_alter_table", "locking_mode", "max_page_count", "page_count", "page_size",
  "query_only", "read_uncommitted", "recursive_triggers", "reverse_unordered_selects",
  "schema_version", "secure_delete", "short_column_names", "soft_heap_limit", "synchronous",
  "temp_store", "threads", "trusted_schema", "user_version", "writable_schema"]

/-- The questions about one table or index, to which there is no answer unless it is named. -/
def questions : List String := [
  "foreign_key_check", "foreign_key_list", "index_info", "index_list", "index_xinfo", "optimize",
  "table_info", "table_xinfo"]

/-- The number of rows that the store answers to a question about a database with some tables. It
lists two schemas beside the tables; its collations, modules, options, questions and functions are
the same everywhere. -/
def answers? (question : String) (tables : Nat) : Option Nat :=
  if settings.contains question then some 1
  else if questions.contains question then some 0
  else
    match question with
    | "database_list" | "integrity_check" | "quick_check" => some 1
    | "table_list" => some (tables + 2)
    | "collation_list" => some 3
    | "module_list" => some 13
    | "compile_options" => some 58
    | "pragma_list" => some 66
    | "function_list" => some 154
    | _ => none

def question? (name : TableName) : Option String :=
  if "pragma_".isPrefixOf name.folded then
    some (String.ofList (name.folded.toList.drop "pragma_".length))
  else none

/-- The listing of a name, in a database of some tables that is kept in a file or not. The schema
lists each table and its index of keys. A file has a page for the schema, and one for each table and
each index. Whoever lists the statements is the third of them, after two that set up the connection.
A text that is not there cannot be taken apart, and no listing of terms is made without a table to
take them from. -/
def find? (name : TableName) (tables : Nat) (isFile : Bool) :
    Except StoreFault (Option Listing) :=
  match name.folded with
  | "sqlite_master" | "sqlite_schema" => .ok (some ⟨"sqlite_master", .ok (2 * tables)⟩)
  | "sqlite_temp_master" | "sqlite_temp_schema" => .ok (some ⟨"sqlite_temp_master", .ok 0⟩)
  | "sqlite_stmt" => .ok (some ⟨"sqlite_stmt", .ok 3⟩)
  | "dbstat" => .ok (some ⟨"dbstat", .ok (isFile.toNat + 2 * tables)⟩)
  | "json_each" => .ok (some ⟨"json_each", .ok 0⟩)
  | "json_tree" => .ok (some ⟨"json_tree", .ok 0⟩)
  | "fts3tokenize" => .ok (some ⟨"fts3tokenize", .error .missingInput⟩)
  | "fts4aux" => .error (.listingArguments "fts4aux")
  | _ =>
    let count := (question? name).bind fun question => answers? question tables
    .ok (count.map fun count => ⟨name.text, .ok count⟩)

end Listing

end DocFilter
