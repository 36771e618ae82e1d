import Mathlib.Tactic.Common
import Mathlib.Data.List.Pairwise

/-!
# Relational tables with unique constraints

A table is a list of rows no two of which share a unique key. The condition is
a field of the table, so a statement that would break it cannot return one:
it fails, and the caller sees the violation instead.

## Implementation notes

A row lists the values of all its unique constraints in `keys`. The primary
key is one of them, and a nullable unique column contributes a key only when
it is not null, so any number of rows may leave it empty.
-/

namespace Relational

/-- What a statement on a table may be refused for. -/
inductive Violation where
  | unique
  | recordNotFound
  deriving DecidableEq, Repr

/-- A sequence of fallible statements succeeds when each of them does. -/
theorem bind_eq_ok {ε α β : Type} {x : Except ε α} {f : α → Except ε β} {b : β} :
    (x >>= f) = .ok b ↔ ∃ a, x = .ok a ∧ f a = .ok b := by
  cases x with
  | error e => exact ⟨fun h => (nomatch h), fun ⟨_, h, _⟩ => (nomatch h)⟩
  | ok a => exact ⟨fun h => ⟨a, rfl, h⟩, fun ⟨_, h, hf⟩ => by cases h; exact hf⟩

/-- A row type together with the values of its unique constraints. -/
class Keyed (Row : Type) where
  Key : Type
  decEq : DecidableEq Key
  keys : Row → List Key

instance {Row : Type} [Keyed Row] : DecidableEq (Keyed.Key Row) := Keyed.decEq

variable {Row : Type} [Keyed Row]

/-- Two rows clash when one unique constraint has the same value in both. -/
def Clash (a b : Row) : Prop := ∃ k ∈ Keyed.keys a, k ∈ Keyed.keys b

instance (a b : Row) : Decidable (Clash a b) :=
  inferInstanceAs (Decidable (∃ k ∈ Keyed.keys a, k ∈ Keyed.keys b))

theorem Clash.symm {a b : Row} (h : Clash a b) : Clash b a := by
  obtain ⟨k, ha, hb⟩ := h
  exact ⟨k, hb, ha⟩

/-- Rows in the order of their insertion, pairwise without a common key. -/
structure Table (Row : Type) [Keyed Row] where
  rows : List Row
  distinct : rows.Pairwise fun a b => ¬ Clash a b

namespace Table

instance : Membership Row (Table Row) := ⟨fun t r => r ∈ t.rows⟩

theorem mem_def {t : Table Row} {r : Row} : r ∈ t ↔ r ∈ t.rows := Iff.rfl

instance [DecidableEq Row] (t : Table Row) (r : Row) : Decidable (r ∈ t) :=
  inferInstanceAs (Decidable (r ∈ t.rows))

/-- Bounded quantifiers over a table are decided row by row. -/
instance (t : Table Row) (P : Row → Prop) [DecidablePred P] : Decidable (∀ r ∈ t, P r) :=
  inferInstanceAs (Decidable (∀ r ∈ t.rows, P r))

instance (t : Table Row) (P : Row → Prop) [DecidablePred P] : Decidable (∃ r ∈ t, P r) :=
  inferInstanceAs (Decidable (∃ r ∈ t.rows, P r))

/-- The table without rows. -/
def empty : Table Row := ⟨[], List.Pairwise.nil⟩

@[simp] theorem not_mem_empty (r : Row) : r ∉ (empty : Table Row) :=
  List.not_mem_nil

/-- A unique key determines its row. -/
theorem eq_of_key {t : Table Row} {a b : Row} (k : Keyed.Key Row) (ha : a ∈ t) (hb : b ∈ t)
    (hka : k ∈ Keyed.keys a) (hkb : k ∈ Keyed.keys b) : a = b := by
  by_contra hne
  have hsymm : Std.Symm fun x y : Row => ¬ Clash x y := ⟨fun _ _ h hc => h hc.symm⟩
  exact t.distinct.forall ha hb hne ⟨k, hka, hkb⟩

theorem eq_of_clash {t : Table Row} {a b : Row} (ha : a ∈ t) (hb : b ∈ t) (h : Clash a b) :
    a = b := by
  obtain ⟨k, hka, hkb⟩ := h
  exact eq_of_key k ha hb hka hkb

/-- The first row satisfying `p`; on a unique column, the only one. -/
def find? (t : Table Row) (p : Row → Bool) : Option Row := t.rows.find? p

theorem find?_some {t : Table Row} {p : Row → Bool} {r : Row} (h : t.find? p = some r) :
    r ∈ t ∧ p r = true :=
  ⟨List.mem_of_find?_eq_some h, List.find?_some h⟩

theorem find?_none {t : Table Row} {p : Row → Bool} (h : t.find? p = none) :
    ∀ r ∈ t, p r = false := by
  intro r hr
  exact Bool.eq_false_iff.mpr (List.find?_eq_none.mp h r hr)

/-- The only row satisfying `p` is the one that is found. -/
theorem find?_of_unique {t : Table Row} {p : Row → Bool} {r : Row} (hr : r ∈ t) (hp : p r = true)
    (huniq : ∀ x ∈ t, p x = true → x = r) : t.find? p = some r := by
  cases h : t.find? p with
  | none => simp [find?_none h r hr] at hp
  | some x =>
      obtain ⟨hx, hpx⟩ := find?_some h
      rw [huniq x hx hpx]

/-- All rows satisfying `p`, in table order. -/
def findMany (t : Table Row) (p : Row → Bool) : List Row := t.rows.filter p

theorem mem_findMany {t : Table Row} {p : Row → Bool} {r : Row} :
    r ∈ t.findMany p ↔ r ∈ t ∧ p r = true :=
  List.mem_filter

/-- A row with a key that is the only one to satisfy `p` is found once. -/
theorem findMany_of_unique {t : Table Row} {p : Row → Bool} {r : Row} (k : Keyed.Key Row)
    (hr : r ∈ t) (hk : k ∈ Keyed.keys r) (hp : p r = true)
    (huniq : ∀ x ∈ t, p x = true → x = r) : t.findMany p = [r] := by
  have hall : ∀ x ∈ t.findMany p, x = r := by
    intro x hx
    obtain ⟨hx, hpx⟩ := mem_findMany.mp hx
    exact huniq x hx hpx
  have hdistinct : (t.findMany p).Pairwise fun a b => ¬ Clash a b := t.distinct.filter p
  have hmem : r ∈ t.findMany p := mem_findMany.mpr ⟨hr, hp⟩
  match hrows : t.findMany p with
  | [] => simp [hrows] at hmem
  | [x] => rw [hall x (by simp [hrows])]
  | x :: y :: rest =>
      rw [hrows, List.pairwise_cons] at hdistinct
      have hx : x = r := hall x (by simp [hrows])
      have hy : y = r := hall y (by simp [hrows])
      exact absurd ⟨k, hx ▸ hk, hy ▸ hk⟩ (hdistinct.1 y List.mem_cons_self)

/-- Insert a row, refused when it clashes with a stored one. -/
def create (t : Table Row) (r : Row) : Except Violation (Table Row) :=
  if h : ∀ x ∈ t.rows, ¬ Clash x r then
    .ok ⟨t.rows ++ [r], List.pairwise_append.mpr
      ⟨t.distinct, List.pairwise_singleton _ _, by simpa using h⟩⟩
  else .error .unique

theorem rows_create {t t' : Table Row} {r : Row} (h : t.create r = .ok t') :
    t'.rows = t.rows ++ [r] := by
  unfold create at h
  split at h
  · cases h
    rfl
  · cases h

theorem mem_create {t t' : Table Row} {r : Row} (h : t.create r = .ok t') (x : Row) :
    x ∈ t' ↔ x ∈ t ∨ x = r := by
  unfold create at h
  split at h
  · cases h
    simp [mem_def]
  · cases h

/-- A row that could be inserted shared no key with a stored one. -/
theorem not_clash_of_create {t t' : Table Row} {r : Row} (h : t.create r = .ok t') :
    ∀ x ∈ t, ¬ Clash x r := by
  unfold create at h
  split at h
  · assumption
  · cases h

theorem create_eq_ok {t : Table Row} {r : Row} (h : ∀ x ∈ t, ¬ Clash x r) :
    ∃ t', t.create r = .ok t' := by
  have h' : ∀ x ∈ t.rows, ¬ Clash x r := h
  unfold create
  rw [dif_pos h']
  exact ⟨_, rfl⟩

/-- Apply `f` to every row satisfying `p`, refused when the result has a clash. -/
def updateMany (t : Table Row) (p : Row → Bool) (f : Row → Row) : Except Violation (Table Row) :=
  if h : (t.rows.map fun r => if p r then f r else r).Pairwise fun a b => ¬ Clash a b then
    .ok ⟨t.rows.map fun r => if p r then f r else r, h⟩
  else .error .unique

theorem mem_updateMany {t t' : Table Row} {p : Row → Bool} {f : Row → Row}
    (h : t.updateMany p f = .ok t') (x : Row) :
    x ∈ t' ↔ ∃ r ∈ t, (if p r then f r else r) = x := by
  unfold updateMany at h
  split at h
  · cases h
    simp [mem_def]
  · cases h

private theorem keys_ite {p : Row → Bool} {f : Row → Row}
    (hkeys : ∀ r, Keyed.keys (f r) = Keyed.keys r) (r : Row) :
    Keyed.keys (if p r then f r else r) = Keyed.keys r := by
  split
  · exact hkeys r
  · rfl

/-- An update of the rows satisfying `p` that leaves their keys alone cannot clash. -/
def modify (t : Table Row) (p : Row → Bool) (f : Row → Row)
    (hkeys : ∀ r, Keyed.keys (f r) = Keyed.keys r) : Table Row where
  rows := t.rows.map fun r => if p r then f r else r
  distinct := by
    rw [List.pairwise_map]
    refine t.distinct.imp ?_
    rintro a b hab ⟨k, ha, hb⟩
    exact hab ⟨k, keys_ite hkeys a ▸ ha, keys_ite hkeys b ▸ hb⟩

theorem mem_modify {t : Table Row} {p : Row → Bool} {f : Row → Row}
    {hkeys : ∀ r, Keyed.keys (f r) = Keyed.keys r} {x : Row} :
    x ∈ t.modify p f hkeys ↔ ∃ r ∈ t, (if p r then f r else r) = x := by
  simp [modify, mem_def]

/-- It makes no difference which rows are selected if the same ones change. -/
theorem modify_congr {t : Table Row} {p q : Row → Bool} {f : Row → Row}
    {hkeys : ∀ r, Keyed.keys (f r) = Keyed.keys r} (h : ∀ r ∈ t, p r = q r) :
    t.modify p f hkeys = t.modify q f hkeys := by
  unfold modify
  congr 1
  apply List.map_congr_left
  intro r hr
  rw [h r hr]

theorem modify_eq_self {t : Table Row} {p : Row → Bool} {f : Row → Row}
    {hkeys : ∀ r, Keyed.keys (f r) = Keyed.keys r} (h : ∀ r ∈ t, p r = false) :
    t.modify p f hkeys = t := by
  obtain ⟨rows, distinct⟩ := t
  unfold modify
  congr 1
  calc rows.map (fun r => if p r then f r else r)
      _ = rows.map id := List.map_congr_left fun r hr => by rw [h r hr]; rfl
      _ = rows := List.map_id rows

/-- Such a bulk update is never refused. -/
theorem updateMany_eq_modify (t : Table Row) (p : Row → Bool) (f : Row → Row)
    (hkeys : ∀ r, Keyed.keys (f r) = Keyed.keys r) :
    t.updateMany p f = .ok (t.modify p f hkeys) :=
  dif_pos (t.modify p f hkeys).distinct

theorem updateMany_isOk {t : Table Row} {p : Row → Bool} {f : Row → Row}
    (hkeys : ∀ r, Keyed.keys (f r) = Keyed.keys r) : ∃ t', t.updateMany p f = .ok t' :=
  ⟨_, updateMany_eq_modify t p f hkeys⟩

/-- Remove the rows satisfying `p`. -/
def delete (t : Table Row) (p : Row → Bool) : Table Row where
  rows := t.rows.filter fun r => !p r
  distinct := t.distinct.filter _

theorem mem_delete {t : Table Row} {p : Row → Bool} {x : Row} :
    x ∈ t.delete p ↔ x ∈ t ∧ p x = false := by
  simp [delete, mem_def]

/-- Update the row satisfying `p` and return it; without such a row, fail. -/
def update (t : Table Row) (p : Row → Bool) (f : Row → Row) : Except Violation (Row × Table Row) :=
  match t.find? p with
  | none => .error .recordNotFound
  | some r =>
      match t.updateMany p f with
      | .error e => .error e
      | .ok t' => .ok (f r, t')

/-- An update that went through found its row and changed every row satisfying `p`. -/
theorem update_ok {t t' : Table Row} {p : Row → Bool} {f : Row → Row} {x : Row}
    (h : t.update p f = .ok (x, t')) :
    ∃ r ∈ t, p r = true ∧ t.find? p = some r ∧ x = f r ∧ t.updateMany p f = .ok t' := by
  unfold update at h
  cases hf : t.find? p with
  | none => simp [hf] at h
  | some r =>
      cases hu : t.updateMany p f with
      | error e => simp [hf, hu] at h
      | ok t₁ =>
          simp only [hf, hu, Except.ok.injEq, Prod.mk.injEq] at h
          obtain ⟨rfl, rfl⟩ := h
          exact ⟨r, (find?_some hf).1, (find?_some hf).2, rfl, rfl, rfl⟩

/-- An update that leaves the keys alone fails only for want of a row. -/
theorem update_isOk {t : Table Row} {p : Row → Bool} {f : Row → Row} {r : Row} (hr : r ∈ t)
    (hp : p r = true) (hkeys : ∀ r, Keyed.keys (f r) = Keyed.keys r) :
    ∃ x t', t.update p f = .ok (x, t') := by
  unfold update
  cases hf : t.find? p with
  | none => simp [find?_none hf r hr] at hp
  | some y => exact ⟨f y, t.modify p f hkeys, by simp [updateMany_eq_modify t p f hkeys]⟩

/-- A bulk update of one row is not refused when no other row has its new keys. -/
theorem updateMany_of_apart {t : Table Row} {p : Row → Bool} {f : Row → Row}
    (hone : ∀ a ∈ t, ∀ b ∈ t, p a = true → p b = true → Clash a b)
    (hapart : ∀ a ∈ t, ∀ b ∈ t, p a = true → p b = false → ¬ Clash (f a) b) :
    ∃ t', t.updateMany p f = .ok t' := by
  refine ⟨_, dif_pos (List.pairwise_map.mpr (t.distinct.imp_of_mem ?_))⟩
  intro a b ha hb hab
  cases hpa : p a with
  | false =>
      cases hpb : p b with
      | false => simpa using hab
      | true => simpa using fun hc => hapart b hb a ha hpb hpa hc.symm
  | true =>
      cases hpb : p b with
      | false => simpa using hapart a ha b hb hpa hpb
      | true => exact absurd (hone a ha b hb hpa hpb) hab

/-- So an update of one row fails only for want of it. -/
theorem update_of_apart {t : Table Row} {p : Row → Bool} {f : Row → Row} {r : Row} (hr : r ∈ t)
    (hp : p r = true) (hone : ∀ a ∈ t, ∀ b ∈ t, p a = true → p b = true → Clash a b)
    (hapart : ∀ a ∈ t, ∀ b ∈ t, p a = true → p b = false → ¬ Clash (f a) b) :
    ∃ x t', t.update p f = .ok (x, t') := by
  unfold update
  cases hf : t.find? p with
  | none => simp [find?_none hf r hr] at hp
  | some y =>
      obtain ⟨t', hu⟩ := updateMany_of_apart hone hapart
      exact ⟨f y, t', by simp [hu]⟩

/-- Update the row satisfying `p`, or insert `r` when there is none. -/
def upsert (t : Table Row) (p : Row → Bool) (r : Row) (f : Row → Row) :
    Except Violation (Row × Table Row) :=
  match t.find? p with
  | some _ => t.update p f
  | none =>
      match t.create r with
      | .error e => .error e
      | .ok t' => .ok (r, t')

/-- An upsert either updated a row satisfying `p` or inserted the given one. -/
theorem upsert_ok {t t' : Table Row} {p : Row → Bool} {r x : Row} {f : Row → Row}
    (h : t.upsert p r f = .ok (x, t')) :
    (∃ y ∈ t, p y = true ∧ x = f y ∧ t.updateMany p f = .ok t') ∨
      ((∀ y ∈ t, p y = false) ∧ x = r ∧ t.create r = .ok t') := by
  unfold upsert at h
  cases hf : t.find? p with
  | some y =>
      simp only [hf] at h
      obtain ⟨z, hz, hpz, _, hx, hu⟩ := update_ok h
      exact Or.inl ⟨z, hz, hpz, hx, hu⟩
  | none =>
      cases hc : t.create r with
      | error e => simp [hf, hc] at h
      | ok t₁ =>
          simp only [hf, hc, Except.ok.injEq, Prod.mk.injEq] at h
          obtain ⟨rfl, rfl⟩ := h
          exact Or.inr ⟨find?_none hf, rfl, rfl⟩

/-- An upsert whose update leaves the keys alone fails only if the new row clashes. -/
theorem upsert_isOk {t : Table Row} {p : Row → Bool} {r : Row} {f : Row → Row}
    (hkeys : ∀ r, Keyed.keys (f r) = Keyed.keys r)
    (hnew : (∀ y ∈ t, p y = false) → ∀ y ∈ t, ¬ Clash y r) :
    ∃ x t', t.upsert p r f = .ok (x, t') := by
  unfold upsert
  cases hf : t.find? p with
  | some y => exact update_isOk (find?_some hf).1 (find?_some hf).2 hkeys
  | none =>
      obtain ⟨t', hc⟩ := create_eq_ok (hnew (find?_none hf))
      exact ⟨r, t', by simp [hc]⟩

/-- `t'` is `t` with `f` applied to every row. -/
def Rewrites (f : Row → Row) (t t' : Table Row) : Prop :=
  ∀ x, x ∈ t' ↔ ∃ r ∈ t, f r = x

/-- `t'` is `t` with the row `r` added. -/
def Extends (r : Row) (t t' : Table Row) : Prop :=
  ∀ x, x ∈ t' ↔ x ∈ t ∨ x = r

/-- Every row of `t` is still in `t'`, with the same value of `core`. -/
def Persists {β : Type} (core : Row → β) (t t' : Table Row) : Prop :=
  ∀ x ∈ t, ∃ y ∈ t', core y = core x

section Rewrites
variable {t t' t₁ t₂ t₃ : Table Row} {f g : Row → Row}

theorem Rewrites.mem (h : Rewrites f t t') {r : Row} (hr : r ∈ t) : f r ∈ t' :=
  (h _).mpr ⟨r, hr, rfl⟩

theorem Rewrites.of_updateMany {p : Row → Bool} (h : t.updateMany p f = .ok t') :
    Rewrites (fun r => if p r then f r else r) t t' :=
  mem_updateMany h

theorem Rewrites.refl (t : Table Row) : Rewrites (fun r => r) t t := by
  simp [Rewrites]

theorem Rewrites.comp (h₁ : Rewrites f t₁ t₂) (h₂ : Rewrites g t₂ t₃) :
    Rewrites (fun r => g (f r)) t₁ t₃ := by
  intro x
  rw [h₂ x]
  constructor
  · rintro ⟨y, hy, rfl⟩
    obtain ⟨r, hr, rfl⟩ := (h₁ y).mp hy
    exact ⟨r, hr, rfl⟩
  · rintro ⟨r, hr, rfl⟩
    exact ⟨f r, h₁.mem hr, rfl⟩

theorem Rewrites.congr (h : Rewrites f t t') (hfg : ∀ r, f r = g r) : Rewrites g t t' := by
  obtain rfl : f = g := funext hfg
  exact h

/-- What is made of rows that the table does not have makes no difference. -/
theorem Rewrites.congr_of_mem (h : Rewrites f t t') (hfg : ∀ r ∈ t, f r = g r) :
    Rewrites g t t' := by
  intro x
  rw [h x]
  constructor
  · rintro ⟨r, hr, rfl⟩
    exact ⟨r, hr, (hfg r hr).symm⟩
  · rintro ⟨r, hr, rfl⟩
    exact ⟨r, hr, hfg r hr⟩

theorem Extends.of_create {r : Row} (h : t.create r = .ok t') : Extends r t t' :=
  mem_create h

theorem Extends.mem_old {r x : Row} (h : Extends r t t') (hx : x ∈ t) : x ∈ t' :=
  (h x).mpr (Or.inl hx)

theorem Extends.mem_new {r : Row} (h : Extends r t t') : r ∈ t' :=
  (h r).mpr (Or.inr rfl)

end Rewrites

section Persists
variable {β : Type} {core : Row → β} {t t' t₁ t₂ t₃ : Table Row}

theorem Persists.refl (t : Table Row) : Persists core t t :=
  fun x hx => ⟨x, hx, rfl⟩

theorem Persists.trans (h₁ : Persists core t₁ t₂) (h₂ : Persists core t₂ t₃) :
    Persists core t₁ t₃ := by
  intro x hx
  obtain ⟨y, hy, hyx⟩ := h₁ x hx
  obtain ⟨z, hz, hzy⟩ := h₂ y hy
  exact ⟨z, hz, hzy.trans hyx⟩

theorem Extends.persists {r : Row} (h : Extends r t t') : Persists core t t' :=
  fun x hx => ⟨x, h.mem_old hx, rfl⟩

/-- An update keeps every column it does not write. -/
theorem Rewrites.persists {f : Row → Row} (h : Rewrites f t t')
    (hcore : ∀ r, core (f r) = core r) : Persists core t t' :=
  fun x hx => ⟨f x, h.mem hx, hcore x⟩

/-- Such an update adds no row of its own. -/
theorem Rewrites.persists_back {f : Row → Row} (h : Rewrites f t t')
    (hcore : ∀ r, core (f r) = core r) : Persists core t' t := by
  intro x hx
  obtain ⟨r, hr, rfl⟩ := (h x).mp hx
  exact ⟨r, hr, (hcore r).symm⟩

end Persists

section Enters
variable {β : Type} {core : Row → β} {p : Row → Prop} {t t' : Table Row} {x : Row}

/-- Row `x` of `t'` has the property `p`, which no row of `t` with its `core` had. -/
structure Enters (core : Row → β) (p : Row → Prop) (t t' : Table Row) (x : Row) : Prop where
  mem : x ∈ t'
  now : p x
  before : ∀ y ∈ t, core y = core x → ¬ p y

theorem Enters.ne (h : Enters core p t t x) : False :=
  h.before x h.mem rfl h.now

/-- A row with a new property was rewritten. -/
theorem Enters.of_rewrites {f : Row → Row} (h : Enters core p t t' x) (hf : Rewrites f t t')
    (hcore : ∀ r, core (f r) = core r) : ∃ r ∈ t, f r = x ∧ p (f r) ∧ ¬ p r := by
  obtain ⟨r, hr, rfl⟩ := (hf x).mp h.mem
  exact ⟨r, hr, rfl, h.now, h.before r hr (hcore r).symm⟩

/-- Or it is the one that was added. -/
theorem Enters.of_extends {r : Row} (h : Enters core p t t' x) (hr : Extends r t t') : x = r := by
  rcases (hr x).mp h.mem with hx | hx
  · exact absurd h.now (h.before x hx rfl)
  · exact hx

end Enters

/-- Rows for which `p` fails are the same in both tables. -/
def SameBut (p : Row → Prop) (t t' : Table Row) : Prop := ∀ x, ¬ p x → (x ∈ t' ↔ x ∈ t)

section SameBut
variable {p : Row → Prop} {t t' : Table Row}

theorem SameBut.refl (t : Table Row) : SameBut p t t := fun _ _ => Iff.rfl

theorem SameBut.of_extends {r : Row} (h : Extends r t t') (hr : p r) : SameBut p t t' := by
  intro x hx
  rw [h x]
  constructor
  · rintro (hold | rfl)
    · exact hold
    · exact absurd hr hx
  · exact Or.inl

/-- An update that neither changes other rows nor makes them rows of `p`. -/
theorem SameBut.of_rewrites {f : Row → Row} (h : Rewrites f t t') (hp : ∀ r ∈ t, p r → p (f r))
    (hother : ∀ r ∈ t, ¬ p r → f r = r) : SameBut p t t' := by
  intro x hx
  rw [h x]
  constructor
  · rintro ⟨r, hr, rfl⟩
    by_cases hpr : p r
    · exact absurd (hp r hr hpr) hx
    · rwa [hother r hr hpr]
  · intro hold
    exact ⟨x, hold, hother x hold hx⟩

end SameBut

end Table

end Relational
