import Mathlib.Order.WithBot
import Reedr.Library.Table

/-!
# Named columns: migrations and queries

A schema lists the columns of each table, and a migration rewrites it. A query
is resolved against the schema before a row is read, so naming a column that
its table does not have fails on every contents, the empty one included.

## Implementation notes

The fragment is one table under an alias, a conjunction of conditions, one
ascending sort key and a limit. Functions and operators are strict: a null
operand gives null, and a condition on null does not hold. A row answers for
every name and type; a query reads the cells it names.
-/

namespace Sql
open Relational

/-- What a migration or a query is refused for. -/
inductive SqlError where
  | duplicateTable (table : String)
  | undefinedTable (table : String)
  | duplicateColumn (table column : String)
  | undefinedColumn (table column : String)
  | missingFromClause (table : String)
  | datatypeMismatch (table column : String)
  deriving DecidableEq, Repr

section Schemas
variable {Ty : Type} [DecidableEq Ty]

/-- A column and its declared type. -/
structure Column (Ty : Type) where
  name : String
  type : Ty
  deriving DecidableEq, Repr

instance : Keyed (Column Ty) where
  Key := String
  decEq := inferInstance
  keys c := [c.name]

/-- A table is declared by its name and columns of distinct names. -/
structure TableDef (Ty : Type) where
  name : String
  columns : Table (Column Ty)

instance : Keyed (TableDef Ty) where
  Key := String
  decEq := inferInstance
  keys t := [t.name]

/-- The declared tables, of distinct names. -/
abbrev Schema (Ty : Type) := Table (TableDef Ty)

/-- The table of that name has such a column. -/
def Schema.Has (s : Schema Ty) (table : String) (c : Column Ty) : Prop :=
  ∃ t ∈ s, t.name = table ∧ c ∈ t.columns

instance (s : Schema Ty) (table : String) (c : Column Ty) : Decidable (s.Has table c) :=
  inferInstanceAs (Decidable (∃ t ∈ s.rows, t.name = table ∧ c ∈ t.columns.rows))

/-- One action of an `ALTER TABLE`. -/
inductive Action (Ty : Type) where
  | addColumn (column : Column Ty)
  | dropColumn (name : String)

/-- The statements of a migration that decide which columns a table has. -/
inductive Ddl (Ty : Type) where
  | createTable (table : String) (columns : List (Column Ty))
  | alterTable (table : String) (actions : List (Action Ty))

/-- Declare one more column. -/
def declareColumn (table : String) (columns : Table (Column Ty)) (c : Column Ty) :
    Except SqlError (Table (Column Ty)) :=
  match columns.create c with
  | .ok columns => .ok columns
  | .error _ => .error (.duplicateColumn table c.name)

def Action.apply (table : String) (columns : Table (Column Ty)) :
    Action Ty → Except SqlError (Table (Column Ty))
  | .addColumn c => declareColumn table columns c
  | .dropColumn name =>
      match columns.find? fun c => c.name = name with
      | none => .error (.undefinedColumn table name)
      | some _ => .ok (columns.delete fun c => c.name = name)

def Ddl.apply (s : Schema Ty) : Ddl Ty → Except SqlError (Schema Ty)
  | .createTable table columns => do
      let columns ← columns.foldlM (declareColumn table) Table.empty
      match s.create ⟨table, columns⟩ with
      | .ok s => .ok s
      | .error _ => .error (.duplicateTable table)
  | .alterTable table actions =>
      match s.find? fun t => t.name = table with
      | none => .error (.undefinedTable table)
      | some t => do
          let columns ← actions.foldlM (Action.apply table) t.columns
          return s.modify (fun t => t.name = table) (fun t => { t with columns }) fun _ => rfl

/-- Migrations in order, each a list of statements. -/
def migrate (s : Schema Ty) (migrations : List (List (Ddl Ty))) : Except SqlError (Schema Ty) :=
  migrations.foldlM (fun s m => m.foldlM Ddl.apply s) s

end Schemas

section Expressions
variable {Ty : Type} (Cell : Ty → Type)

/-- A row holds a value of the declared type, or null, in each column. -/
abbrev Row := String → (τ : Ty) → Option (Cell τ)

/-- The rows of each table. -/
abbrev Contents := String → List (Row Cell)

/-- A typed scalar expression; parameters are values. -/
inductive Expr : Ty → Type where
  | column (table name : String) (τ : Ty) : Expr τ
  | value {τ : Ty} (v : Cell τ) : Expr τ
  | call₂ {α β γ : Ty} (f : Cell α → Cell β → Cell γ) (a : Expr α) (b : Expr β) : Expr γ
  | call₃ {α β γ δ : Ty} (f : Cell α → Cell β → Cell γ → Cell δ)
      (a : Expr α) (b : Expr β) (c : Expr γ) : Expr δ

/-- A conjunction as a `WHERE` clause writes it. -/
inductive Condition where
  | holds {τ : Ty} (test : Cell τ → Bool) (e : Expr Cell τ)
  | isNotNull {τ : Ty} (e : Expr Cell τ)
  | and (p q : Condition)

/-- A column as an expression names it, with the type it is used at. -/
structure ColumnRef (Ty : Type) where
  table : String
  column : Column Ty

/-- Sort ascending by an expression of an ordered type. -/
structure SortKey where
  type : Ty
  order : LinearOrder (Cell type)
  expr : Expr Cell type

/-- An item of a select list: an expression and its output name. -/
structure Item where
  name : String
  type : Ty
  expr : Expr Cell type

/-- `SELECT items FROM table tableAlias WHERE condition ORDER BY orderBy LIMIT limit`. -/
structure Query where
  items : List (Item Cell)
  table : String
  tableAlias : String
  condition : Condition Cell
  orderBy : SortKey Cell
  limit : Nat

/-- An object with the output names as its keys. -/
abbrev Output := List (String × Σ τ : Ty, Option (Cell τ))

end Expressions

variable {Ty : Type} {Cell : Ty → Type}

namespace Expr
variable {τ : Ty}

/-- The columns named, in the order of the text. -/
def columns {τ : Ty} : Expr Cell τ → List (ColumnRef Ty)
  | .column table name τ => [⟨table, name, τ⟩]
  | .value _ => []
  | .call₂ _ a b => a.columns ++ b.columns
  | .call₃ _ a b c => a.columns ++ b.columns ++ c.columns

def eval {τ : Ty} (r : Row Cell) : Expr Cell τ → Option (Cell τ)
  | .column _ name τ => r name τ
  | .value v => some v
  | .call₂ f a b => do return f (← a.eval r) (← b.eval r)
  | .call₃ f a b c => do return f (← a.eval r) (← b.eval r) (← c.eval r)

end Expr

namespace Condition

def columns : Condition Cell → List (ColumnRef Ty)
  | .holds _ e => e.columns
  | .isNotNull e => e.columns
  | .and p q => p.columns ++ q.columns

/-- The condition is true of the row; unknown is not true. -/
def eval (r : Row Cell) : Condition Cell → Bool
  | .holds test e => (e.eval r).any test
  | .isNotNull e => (e.eval r).isSome
  | .and p q => p.eval r && q.eval r

end Condition

section Foremost
variable {α : Type}

end Foremost

namespace Query

/-- Every column the query names, in the order of its clauses. -/
def columns (q : Query Cell) : List (ColumnRef Ty) :=
  q.items.flatMap (fun i => i.expr.columns) ++ q.condition.columns ++ q.orderBy.expr.columns

/-- The rows that satisfy the condition. -/
def matching (q : Query Cell) (rows : List (Row Cell)) : List (Row Cell) :=
  rows.filter fun r => q.condition.eval r

/-- The sort key of a row; null sorts last. -/
def key (q : Query Cell) (r : Row Cell) : WithTop (Cell q.orderBy.type) :=
  q.orderBy.expr.eval r

/-- `a` may stand before `b`. -/
def Precedes (q : Query Cell) (a b : Row Cell) : Prop :=
  letI := q.orderBy.order
  q.key a ≤ q.key b

instance (q : Query Cell) : DecidableRel q.Precedes :=
  fun a b =>
    letI := q.orderBy.order
    inferInstanceAs (Decidable (q.key a ≤ q.key b))

/-- The rows the query answers with, in their order. -/
def answers (q : Query Cell) (rows : List (Row Cell)) : List (Row Cell) :=
  ((q.matching rows).mergeSort fun a b => q.Precedes a b).take q.limit

/-- The output of one row. -/
def output (q : Query Cell) (r : Row Cell) : Output Cell :=
  q.items.map fun i => (i.name, ⟨i.type, i.expr.eval r⟩)

section Answers
variable (q : Query Cell)

theorem precedes_trans {a b c : Row Cell} (hab : q.Precedes a b) (hbc : q.Precedes b c) :
    q.Precedes a c := by
  let _ := q.orderBy.order
  have hab' : q.key a ≤ q.key b := hab
  exact hab'.trans hbc

theorem precedes_total (a b : Row Cell) : q.Precedes a b ∨ q.Precedes b a := by
  let _ := q.orderBy.order
  exact le_total (q.key a) (q.key b)

/-- Rows that may stand in either order have the same key. -/
theorem key_eq_of_precedes {a b : Row Cell} (hab : q.Precedes a b) (hba : q.Precedes b a) :
    q.key a = q.key b := by
  let _ := q.orderBy.order
  have hab' : q.key a ≤ q.key b := hab
  exact hab'.antisymm hba

private theorem matching_sorted (rows : List (Row Cell)) :
    ((q.matching rows).mergeSort fun a b => q.Precedes a b).Pairwise q.Precedes := by
  have htrans : ∀ a b c : Row Cell, decide (q.Precedes a b) = true →
      decide (q.Precedes b c) = true → decide (q.Precedes a c) = true := by
    intro a b c hab hbc
    exact decide_eq_true (q.precedes_trans (of_decide_eq_true hab) (of_decide_eq_true hbc))
  have htotal : ∀ a b : Row Cell,
      (decide (q.Precedes a b) || decide (q.Precedes b a)) = true := by
    intro a b
    simpa using q.precedes_total a b
  simpa using List.pairwise_mergeSort htrans htotal (q.matching rows)

/-- When no two matching rows share a key, the order of ties is no freedom: any sorted
arrangement of the matching rows gives these answers. -/
theorem answers_unique {rows sorted : List (Row Cell)} (hperm : sorted.Perm (q.matching rows))
    (hsorted : sorted.Pairwise q.Precedes)
    (hkeys : ∀ a ∈ q.matching rows, ∀ b ∈ q.matching rows, q.key a = q.key b → a = b) :
    q.answers rows = sorted.take q.limit := by
  have heq : ((q.matching rows).mergeSort fun a b => q.Precedes a b) = sorted := by
    apply List.Perm.eq_of_pairwise _ (q.matching_sorted rows) hsorted
    · exact (List.mergeSort_perm _ _).trans hperm.symm
    · intro a b ha hb hab hba
      apply hkeys a (List.mem_mergeSort.mp ha) b (hperm.subset hb)
      exact q.key_eq_of_precedes hab hba
  rw [answers, heq]

/-- The answers on rows that show other objects are the rows of the objects that answer. -/
theorem answers_map {α : Type} (row : α → Row Cell) (l : List α) :
    q.answers (l.map row) =
      (((l.filter fun a => q.condition.eval (row a)).mergeSort fun a b =>
        q.Precedes (row a) (row b)).take q.limit).map row := by
  unfold answers matching
  rw [List.filter_map, List.map_take]
  congr 1
  symm
  apply List.map_mergeSort
  intro a _ b _
  rfl

end Answers

variable [DecidableEq Ty]

/-- Look one named column up in the table that stands under `tableAlias`. -/
def resolveColumn (tableAlias : String) (t : TableDef Ty) (ref : ColumnRef Ty) :
    Except SqlError Unit :=
  if ref.table ≠ tableAlias then .error (.missingFromClause ref.table)
  else
    match t.columns.find? fun c => c.name = ref.column.name with
    | none => .error (.undefinedColumn ref.table ref.column.name)
    | some c =>
        if c.type = ref.column.type then .ok ()
        else .error (.datatypeMismatch ref.table ref.column.name)

def resolve (q : Query Cell) (s : Schema Ty) : Except SqlError Unit :=
  match s.find? fun t => t.name = q.table with
  | none => .error (.undefinedTable q.table)
  | some t => q.columns.forM (resolveColumn q.tableAlias t)

def run (q : Query Cell) (s : Schema Ty) (db : Contents Cell) :
    Except SqlError (List (Output Cell)) := do
  q.resolve s
  return (q.answers (db q.table)).map q.output

theorem resolveColumn_of_mem {tableAlias : String} {t : TableDef Ty} {ref : ColumnRef Ty}
    (halias : ref.table = tableAlias) (hc : ref.column ∈ t.columns) :
    resolveColumn tableAlias t ref = .ok () := by
  have hfind : t.columns.find? (fun c => c.name = ref.column.name) = some ref.column := by
    apply Table.find?_of_unique hc (by simp)
    intro c hmem hname
    have hk : c.name = ref.column.name := by simpa using hname
    exact Table.eq_of_key ref.column.name hmem hc (by simp [Keyed.keys, hk]) (by simp [Keyed.keys])
  simp [resolveColumn, halias, hfind]

theorem resolveColumn_eq_ok {tableAlias : String} {t : TableDef Ty} {ref : ColumnRef Ty} :
    resolveColumn tableAlias t ref = .ok () ↔ ref.table = tableAlias ∧ ref.column ∈ t.columns := by
  constructor
  · intro h
    unfold resolveColumn at h
    split at h
    · cases h
    next halias =>
      split at h
      · cases h
      next c hfind =>
        obtain ⟨hc, hname⟩ := Table.find?_some hfind
        split at h
        next htype =>
          have heq : c = ref.column := by
            cases c
            cases hr : ref.column
            simp_all
          exact ⟨not_not.mp halias, heq ▸ hc⟩
        · cases h
  · rintro ⟨halias, hc⟩
    exact resolveColumn_of_mem halias hc

theorem resolveColumn_undefined {tableAlias : String} {t : TableDef Ty} {ref : ColumnRef Ty}
    (halias : ref.table = tableAlias) (hc : ∀ c ∈ t.columns, c.name ≠ ref.column.name) :
    resolveColumn tableAlias t ref = .error (.undefinedColumn ref.table ref.column.name) := by
  have hfind : t.columns.find? (fun c => c.name = ref.column.name) = none := by
    apply List.find?_eq_none.mpr
    intro c hmem
    simpa using hc c hmem
  simp [resolveColumn, halias, hfind]

omit [DecidableEq Ty] in
private theorem find?_table {s : Schema Ty} {t : TableDef Ty} {table : String} (ht : t ∈ s)
    (hname : t.name = table) : s.find? (fun t => t.name = table) = some t := by
  apply Table.find?_of_unique ht (by simpa using hname)
  intro x hx hxname
  have hk : x.name = t.name := by simpa [hname] using hxname
  exact Table.eq_of_key t.name hx ht (by simp [Keyed.keys, hk]) (by simp [Keyed.keys])

private theorem forM_eq_ok {α ε : Type} {f : α → Except ε Unit} {l : List α} :
    l.forM f = .ok () ↔ ∀ a ∈ l, f a = .ok () := by
  induction l with
  | nil => exact ⟨fun _ a ha => absurd ha List.not_mem_nil, fun _ => rfl⟩
  | cons a l ih =>
      have hcons : (a :: l).forM f = f a >>= fun _ => l.forM f := rfl
      rw [hcons, bind_eq_ok, List.forall_mem_cons, ← ih]
      constructor
      · rintro ⟨⟨⟩, ha, hl⟩
        exact ⟨ha, hl⟩
      · rintro ⟨ha, hl⟩
        exact ⟨(), ha, hl⟩

/-- The first failure is the one that is reported. -/
private theorem forM_append_error {α ε : Type} {f : α → Except ε Unit} {pre post : List α}
    {a : α} {e : ε} (hpre : ∀ x ∈ pre, f x = .ok ()) (ha : f a = .error e) :
    (pre ++ a :: post).forM f = .error e := by
  induction pre with
  | nil =>
      change (f a >>= fun _ => post.forM f) = .error e
      rw [ha]
      rfl
  | cons x pre ih =>
      change (f x >>= fun _ => (pre ++ a :: post).forM f) = .error e
      rw [hpre x List.mem_cons_self]
      exact ih fun y hy => hpre y (List.mem_cons_of_mem _ hy)

/-- A query resolves exactly when its table exists and has every column it names. -/
theorem resolve_eq_ok {q : Query Cell} {s : Schema Ty} {t : TableDef Ty} (ht : t ∈ s)
    (hname : t.name = q.table) :
    q.resolve s = .ok () ↔
      ∀ ref ∈ q.columns, ref.table = q.tableAlias ∧ ref.column ∈ t.columns := by
  unfold resolve
  rw [find?_table ht hname]
  simp only [forM_eq_ok, resolveColumn_eq_ok]

/-- A query fails on the first column it names that its table does not have. -/
theorem resolve_undefined {q : Query Cell} {s : Schema Ty} {t : TableDef Ty} (ht : t ∈ s)
    (hname : t.name = q.table) {pre post : List (ColumnRef Ty)} {ref : ColumnRef Ty}
    (hcols : q.columns = pre ++ ref :: post)
    (hpre : ∀ x ∈ pre, x.table = q.tableAlias ∧ x.column ∈ t.columns)
    (halias : ref.table = q.tableAlias) (hc : ∀ c ∈ t.columns, c.name ≠ ref.column.name) :
    q.resolve s = .error (.undefinedColumn ref.table ref.column.name) := by
  unfold resolve
  rw [find?_table ht hname, hcols]
  apply forM_append_error
  · intro x hx
    exact resolveColumn_eq_ok.mpr (hpre x hx)
  · exact resolveColumn_undefined halias hc

/-- A query that resolves succeeds on every contents of the tables. -/
theorem run_of_resolve {q : Query Cell} {s : Schema Ty} (h : q.resolve s = .ok ())
    (db : Contents Cell) : q.run s db = .ok ((q.answers (db q.table)).map q.output) := by
  simp only [run, h]
  rfl

/-- A query that does not resolve fails alike on every contents of the tables. -/
theorem run_of_error {q : Query Cell} {s : Schema Ty} {e : SqlError} (h : q.resolve s = .error e)
    (db : Contents Cell) : q.run s db = .error e := by
  simp only [run, h]
  rfl

end Query

end Sql
