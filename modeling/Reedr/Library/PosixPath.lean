import Mathlib.Tactic.Common
import Mathlib.Data.List.Basic

/-!
# Lexical normalisation of POSIX paths

A path is a list of characters that `/` divides into segments. Normalising
drops empty segments and `.`, and `..` takes back the segment before it. The
segments kept so far stand on a stack, the last one on top.

## Implementation notes

Nothing here looks at a file system, so links are not followed. `resolve` is
given the working directory, which a path that begins with `/` does not use.
-/

namespace Posix

abbrev Path := List Char

abbrev Segment := List Char

/-- `..` -/
def up : Segment := ['.', '.']

/-- A segment that normalisation keeps wherever it stands. -/
structure IsName (s : Segment) : Prop where
  ne_nil : s ≠ []
  ne_dot : s ≠ ['.']
  ne_up : s ≠ up
  no_slash : '/' ∉ s

instance (s : Segment) : Decidable (IsName s) :=
  decidable_of_iff (s ≠ [] ∧ s ≠ ['.'] ∧ s ≠ up ∧ '/' ∉ s)
    ⟨fun ⟨h₁, h₂, h₃, h₄⟩ => ⟨h₁, h₂, h₃, h₄⟩, fun ⟨h₁, h₂, h₃, h₄⟩ => ⟨h₁, h₂, h₃, h₄⟩⟩

/-- A segment that is more than dots is a name. -/
theorem IsName.of_mem {s : Segment} {c : Char} (hc : c ∈ s) (hdot : c ≠ '.') (hs : '/' ∉ s) :
    IsName s := by
  refine ⟨?_, ?_, ?_, hs⟩
  all_goals rintro rfl; simp [up, hdot] at hc

/-- Read one more segment. Above the root of an absolute path there is only the root. -/
def push (absolute : Bool) (stack : List Segment) (s : Segment) : List Segment :=
  if s = [] ∨ s = ['.'] then stack
  else if s = up then
    match stack with
    | [] => if absolute then [] else [up]
    | top :: rest => if top = up then up :: top :: rest else rest
  else s :: stack

def normalizeSegments (absolute : Bool) (segments : List Segment) : List Segment :=
  (segments.foldl (push absolute) []).reverse

def segments (p : Path) : List Segment := p.splitOn '/'

def isAbsolute (p : Path) : Bool := p.head? = some '/'

/-- The normalised segments, joined again. -/
def normalizeString (absolute : Bool) (p : Path) : Path :=
  ['/'].intercalate (normalizeSegments absolute (segments p))

/-- `path.normalize`: a final separator is kept. -/
def normalize (p : Path) : Path :=
  let body := normalizeString (isAbsolute p) p
  let trailing := p.getLast? = some '/'
  if p = [] then ['.']
  else if body = [] then
    if isAbsolute p then ['/'] else if trailing then ['.', '/'] else ['.']
  else
    (if isAbsolute p then ['/'] else []) ++ body ++ (if trailing then ['/'] else [])

/-- `path.join` of two paths: empty ones are skipped. -/
def join (a b : Path) : Path :=
  let joined := ['/'].intercalate ([a, b].filter fun p => p ≠ [])
  if joined = [] then ['.'] else normalize joined

/-- `path.resolve` of one path against the working directory. -/
def resolve (cwd p : Path) : Path :=
  '/' :: normalizeString true (if isAbsolute p then p else cwd ++ '/' :: p)

/-- The path from the root down the given names. -/
def absolute (names : List Segment) : Path := '/' :: ['/'].intercalate names

/-- A normalised absolute path. -/
def Normalized (p : Path) : Prop := ∃ names, (∀ s ∈ names, IsName s) ∧ p = absolute names

section Segments
variable {names : List Segment}

theorem no_slash_of_mem_segments {p : Path} {s : Segment} (h : s ∈ segments p) : '/' ∉ s := by
  induction p generalizing s with
  | nil =>
      simp only [segments, List.splitOn_nil, List.mem_singleton] at h
      subst h
      exact List.not_mem_nil
  | cons c p ih =>
      unfold segments at h ih
      rw [List.splitOn_cons_eq_if_modifyHead] at h
      by_cases hc : c = '/'
      · rw [if_pos (by simpa using hc)] at h
        rcases List.mem_cons.mp h with rfl | h
        · exact List.not_mem_nil
        · exact ih h
      · rw [if_neg (by simpa using hc)] at h
        obtain ⟨t, rest, hsplit⟩ := List.exists_cons_of_ne_nil (List.splitOn_ne_nil '/' p)
        rw [hsplit] at h ih
        rcases List.mem_cons.mp h with rfl | h
        · have ht := ih List.mem_cons_self
          simp [ht, Ne.symm hc]
        · exact ih (List.mem_cons_of_mem _ h)

theorem segments_append_slash (p q : Path) :
    segments (p ++ '/' :: q) = segments p ++ segments q :=
  List.splitOn_append_cons_self p q

/-- A path from the root splits into the names again. -/
theorem segments_absolute (h : ∀ s ∈ names, '/' ∉ s) :
    segments (absolute names) = [] :: if names = [] then [[]] else names := by
  have hcons : absolute names = [] ++ '/' :: ['/'].intercalate names := rfl
  rw [hcons, segments_append_slash]
  split
  next hnil =>
    subst hnil
    rfl
  next hne =>
    change [[]] ++ _ = _
    rw [segments, List.splitOn_intercalate '/' h hne]
    rfl

@[simp] theorem push_nil (b : Bool) (stack : List Segment) : push b stack [] = stack := by
  simp [push]

theorem push_name (b : Bool) (stack : List Segment) {s : Segment} (h : IsName s) :
    push b stack s = s :: stack := by
  simp [push, h.ne_nil, h.ne_dot, h.ne_up]

theorem foldl_push_names (b : Bool) (stack : List Segment) (h : ∀ s ∈ names, IsName s) :
    names.foldl (push b) stack = names.reverse ++ stack := by
  induction names generalizing stack with
  | nil => rfl
  | cons s names ih =>
      obtain ⟨hs, hrest⟩ := List.forall_mem_cons.mp h
      rw [List.foldl_cons, push_name b stack hs, ih _ hrest]
      simp

/-- What an absolute path reduces to consists of names. -/
theorem isName_of_mem_foldl {segs : List Segment} {stack : List Segment}
    (hsegs : ∀ s ∈ segs, '/' ∉ s) (hstack : ∀ s ∈ stack, IsName s) :
    ∀ s ∈ segs.foldl (push true) stack, IsName s := by
  induction segs generalizing stack with
  | nil => exact hstack
  | cons s segs ih =>
      obtain ⟨hs, hrest⟩ := List.forall_mem_cons.mp hsegs
      apply ih hrest
      unfold push
      split
      · exact hstack
      · next hkeep =>
          split
          · cases stack with
            | nil => simp
            | cons top rest =>
                obtain ⟨htop, htail⟩ := List.forall_mem_cons.mp hstack
                simpa [htop.ne_up] using htail
          · next hup =>
              obtain ⟨hnil, hdot⟩ := not_or.mp hkeep
              exact List.forall_mem_cons.mpr ⟨⟨hnil, hdot, hup, hs⟩, hstack⟩

theorem isName_of_mem_normalizeSegments {p : Path} {s : Segment}
    (h : s ∈ normalizeSegments true (segments p)) : IsName s := by
  have hempty : ∀ s ∈ ([] : List Segment), IsName s := fun s hs => absurd hs List.not_mem_nil
  exact isName_of_mem_foldl (fun s => no_slash_of_mem_segments) hempty s (List.mem_reverse.mp h)

end Segments

section Relative

/-- How many directories a relative path leaves upwards. -/
def climbs (p : Path) : Nat :=
  ((normalizeSegments false (segments p)).takeWhile fun s => s = up).length

/-- The names a relative path goes down after it has left those directories. -/
def descends (p : Path) : List Segment :=
  (normalizeSegments false (segments p)).dropWhile fun s => s = up

/-- The stacks of a relative path and of the same path read from a directory: the same names
over as many `..` as directories of the base are gone. -/
def Follows (base rel abs : List Segment) : Prop :=
  ∃ n down, (∀ s ∈ down, IsName s) ∧ rel = down ++ List.replicate n up ∧
    abs = down ++ base.drop n

theorem Follows.push {base rel abs : List Segment} (hbase : ∀ s ∈ base, IsName s)
    (h : Follows base rel abs) {s : Segment} (hs : '/' ∉ s) :
    Follows base (push false rel s) (push true abs s) := by
  obtain ⟨n, down, hdown, rfl, rfl⟩ := h
  by_cases hskip : s = [] ∨ s = ['.']
  · simp only [Posix.push, if_pos hskip]
    exact ⟨n, down, hdown, rfl, rfl⟩
  by_cases hup : s = up
  · subst hup
    simp only [Posix.push, if_neg hskip, if_true]
    cases down with
    | cons top down =>
        -- A name on top is taken back on both stacks.
        obtain ⟨htop, hrest⟩ := List.forall_mem_cons.mp hdown
        refine ⟨n, down, hrest, ?_, ?_⟩
        · simp [htop.ne_up]
        · simp [htop.ne_up]
    | nil =>
        -- Otherwise one more directory of the base is left.
        refine ⟨n + 1, [], hdown, ?_, ?_⟩
        · cases n <;> simp [List.replicate_succ]
        · simp only [List.nil_append]
          cases hdrop : base.drop n with
          | nil => simp [List.drop_eq_nil_iff.mp hdrop, List.drop_eq_nil_of_le,
              Nat.le_succ_of_le]
          | cons top rest =>
              have htop : IsName top := by
                apply hbase
                apply List.mem_of_mem_drop (i := n)
                rw [hdrop]
                exact List.mem_cons_self
              have htail : base.drop (n + 1) = rest := by
                rw [← List.tail_drop, hdrop]
                rfl
              simp [htop.ne_up, htail]
  · have hname : IsName s := ⟨fun h => hskip (.inl h), fun h => hskip (.inr h), hup, hs⟩
    rw [push_name _ _ hname, push_name _ _ hname]
    exact ⟨n, s :: down, List.forall_mem_cons.mpr ⟨hname, hdown⟩, rfl, rfl⟩

theorem Follows.foldl {base rel abs segs : List Segment} (hbase : ∀ s ∈ base, IsName s)
    (h : Follows base rel abs) (hsegs : ∀ s ∈ segs, '/' ∉ s) :
    Follows base (segs.foldl (Posix.push false) rel) (segs.foldl (Posix.push true) abs) := by
  induction segs generalizing rel abs with
  | nil => exact h
  | cons s segs ih =>
      obtain ⟨hs, hrest⟩ := List.forall_mem_cons.mp hsegs
      exact ih (h.push hbase hs) hrest

private theorem takeWhile_up {l : List Segment} (h : ∀ s ∈ l, IsName s) (n : Nat) :
    (List.replicate n up ++ l).takeWhile (fun s => s = up) = List.replicate n up ∧
      (List.replicate n up ++ l).dropWhile (fun s => s = up) = l := by
  induction n with
  | zero =>
      cases l with
      | nil => exact ⟨rfl, rfl⟩
      | cons s l =>
          have hs := (h s List.mem_cons_self).ne_up
          simp [hs]
  | succ n ih =>
      simp only [List.replicate_succ, List.cons_append, List.takeWhile_cons, List.dropWhile_cons,
        decide_true, if_true]
      exact ⟨by rw [ih.1], ih.2⟩

/-- Read from a directory, a relative path keeps what it does not climb above and goes down
its own names from there. -/
theorem normalizeSegments_below {base : List Segment} (hbase : ∀ s ∈ base, IsName s) (p : Path) :
    normalizeSegments true (base ++ segments p) =
      base.take (base.length - climbs p) ++ descends p := by
  have hbase' : ∀ s ∈ base.reverse, IsName s := fun s hs => hbase s (List.mem_reverse.mp hs)
  have hstart : Follows base.reverse [] base.reverse :=
    ⟨0, [], fun s hs => absurd hs List.not_mem_nil, rfl, rfl⟩
  obtain ⟨n, down, hdown, hrel, habs⟩ :=
    hstart.foldl hbase' fun s => no_slash_of_mem_segments (p := p)
  have hnames : ∀ s ∈ down.reverse, IsName s := fun s hs => hdown s (List.mem_reverse.mp hs)
  have hform : normalizeSegments false (segments p) =
      List.replicate n up ++ down.reverse := by
    rw [normalizeSegments, hrel, List.reverse_append, List.reverse_replicate]
  have hclimbs : climbs p = n := by
    rw [climbs, hform, (takeWhile_up hnames n).1, List.length_replicate]
  have hdescends : descends p = down.reverse := by
    rw [descends, hform, (takeWhile_up hnames n).2]
  calc
    normalizeSegments true (base ++ segments p)
      = ((segments p).foldl (push true) base.reverse).reverse := by
        rw [normalizeSegments, List.foldl_append, foldl_push_names _ _ hbase, List.append_nil]
    _ = (base.reverse.drop n).reverse ++ down.reverse := by rw [habs, List.reverse_append]
    _ = base.take (base.length - climbs p) ++ descends p := by
        rw [List.drop_reverse, List.reverse_reverse, hclimbs, hdescends]

/-- A path written as names joined by separators climbs nowhere and goes down these names. -/
theorem climbs_descends_of_names {names : List Segment} (hne : names ≠ [])
    (h : ∀ s ∈ names, IsName s) {p : Path} (hp : p = ['/'].intercalate names) :
    climbs p = 0 ∧ descends p = names := by
  have hsegs : segments p = names := by
    rw [hp]
    exact List.splitOn_intercalate '/' (fun s hs => (h s hs).no_slash) hne
  have hform : normalizeSegments false (segments p) = List.replicate 0 up ++ names := by
    rw [normalizeSegments, hsegs, foldl_push_names _ _ h, List.append_nil, List.reverse_reverse]
    rfl
  rw [climbs, descends, hform, (takeWhile_up h 0).1, (takeWhile_up h 0).2]
  exact ⟨rfl, rfl⟩

theorem isName_of_mem_descends {p : Path} {s : Segment} (h : s ∈ descends p) : IsName s := by
  have hmem : s ∈ normalizeSegments true ([] ++ segments p) := by
    rw [normalizeSegments_below (fun s hs => absurd hs List.not_mem_nil)]
    exact List.mem_append_right _ h
  exact isName_of_mem_normalizeSegments hmem

end Relative

section Absolute
variable {names : List Segment}

/-- Reading the path down some names gives the names back. -/
theorem normalizeSegments_absolute (h : ∀ s ∈ names, IsName s) :
    normalizeSegments true (segments (absolute names)) = names := by
  have hfold : (segments (absolute names)).foldl (push true) [] = names.reverse := by
    rw [segments_absolute fun s hs => (h s hs).no_slash, List.foldl_cons, push_nil]
    split
    next hnil =>
      subst hnil
      rfl
    · rw [foldl_push_names _ _ h, List.append_nil]
  rw [normalizeSegments, hfold, List.reverse_reverse]

theorem absolute_injective {names' : List Segment} (h : ∀ s ∈ names, IsName s)
    (h' : ∀ s ∈ names', IsName s) (heq : absolute names = absolute names') : names = names' := by
  rw [← normalizeSegments_absolute h, ← normalizeSegments_absolute h', heq]

theorem resolve_normalized (cwd p : Path) : Normalized (resolve cwd p) :=
  ⟨_, fun _ hs => isName_of_mem_normalizeSegments hs, rfl⟩

/-- A normalised path is one that `resolve` leaves alone. -/
theorem Normalized.resolve_eq {p : Path} (h : Normalized p) (cwd : Path) : resolve cwd p = p := by
  obtain ⟨names, hnames, rfl⟩ := h
  have habs : isAbsolute (absolute names) = true := rfl
  rw [resolve, habs, if_pos rfl, normalizeString, normalizeSegments_absolute hnames]
  rfl

@[simp] theorem normalizeSegments_nil_cons (b : Bool) (segs : List Segment) :
    normalizeSegments b ([] :: segs) = normalizeSegments b segs := by
  simp [normalizeSegments]

@[simp] theorem normalizeSegments_append_nil (b : Bool) (segs : List Segment) :
    normalizeSegments b (segs ++ [[]]) = normalizeSegments b segs := by
  simp [normalizeSegments]

/-- Resolving forgets the final separator that `normalize` keeps. -/
theorem resolve_normalize {p : Path} (hp : isAbsolute p = true) (cwd : Path) :
    resolve cwd (normalize p) = absolute (normalizeSegments true (segments p)) := by
  have hne : p ≠ [] := by
    rintro rfl
    exact absurd hp (by decide)
  have hnormal : Normalized (absolute (normalizeSegments true (segments p))) :=
    ⟨_, fun _ hs => isName_of_mem_normalizeSegments hs, rfl⟩
  have hcases : normalize p = absolute (normalizeSegments true (segments p)) ∨
      normalize p = absolute (normalizeSegments true (segments p)) ++ ['/'] := by
    unfold normalize normalizeString
    simp only [hne, if_false, hp, if_true]
    split
    next hbody =>
      left
      rw [absolute, hbody]
    · split
      · exact .inr rfl
      · left
        rw [List.append_nil]
        rfl
  rcases hcases with h | h
  · rw [h, hnormal.resolve_eq]
  · have habs : isAbsolute (absolute (normalizeSegments true (segments p)) ++ ['/']) = true := rfl
    rw [h, resolve, habs, if_pos rfl, normalizeString, segments_append_slash]
    have hempty : segments [] = [[]] := rfl
    rw [hempty, normalizeSegments_append_nil,
      normalizeSegments_absolute fun _ hs => isName_of_mem_normalizeSegments hs]
    rfl

/-- A key joined to a directory and resolved: what the key does not climb above of the
directory, and the key's own names below. -/
theorem resolve_join (h : ∀ s ∈ names, IsName s) (cwd key : Path) :
    resolve cwd (join (absolute names) key) =
      absolute (names.take (names.length - climbs key) ++ descends key) := by
  rw [← normalizeSegments_below h]
  have hdir : segments (absolute names) = [] :: if names = [] then [[]] else names :=
    segments_absolute fun s hs => (h s hs).no_slash
  by_cases hkey : key = []
  · subst hkey
    have hjoin : join (absolute names) [] = normalize (absolute names) := by simp [join, absolute]
    have hempty : segments [] = [[]] := rfl
    rw [hjoin, resolve_normalize rfl, normalizeSegments_absolute h, hempty,
      normalizeSegments_append_nil]
    have hfold : names.foldl (push true) [] = names.reverse := by
      rw [foldl_push_names _ _ h, List.append_nil]
    rw [normalizeSegments, hfold, List.reverse_reverse]
  · have hjoin : join (absolute names) key = normalize (absolute names ++ '/' :: key) := by
      simp [join, absolute, hkey]
    rw [hjoin, resolve_normalize rfl, segments_append_slash, hdir]
    congr 1
    split
    next hnil =>
      subst hnil
      simp
    · simp

end Absolute

section Prefixes

/-- The separator before every segment, as a path reads below the root. -/
def spell (segs : List Segment) : Path := segs.flatMap fun s => '/' :: s

theorem absolute_eq_spell {names : List Segment} (h : names ≠ []) :
    absolute names = spell names := by
  induction names with
  | nil => exact absurd rfl h
  | cons s names ih =>
      cases names with
      | nil => simp [absolute, spell]
      | cons t names =>
          have htail := ih (List.cons_ne_nil _ _)
          unfold absolute spell at htail ⊢
          rw [List.intercalate_cons_cons, List.flatMap_cons, ← htail]
          simp

/-- Two segments up to the next separator. -/
private theorem prefix_slash {a b x y : Path} (ha : '/' ∉ a) (hb : '/' ∉ b) :
    a ++ '/' :: x <+: b ++ '/' :: y ↔ a = b ∧ x <+: y := by
  induction a generalizing b with
  | nil =>
      cases b with
      | nil => simp
      | cons c b =>
          have hc : '/' ≠ c := fun hc => hb (hc ▸ List.mem_cons_self)
          simp [hc]
  | cons c a ih =>
      have hc : c ≠ '/' := fun hc => ha (hc ▸ List.mem_cons_self)
      have ha' : '/' ∉ a := fun h => ha (List.mem_cons_of_mem _ h)
      cases b with
      | nil => simp [hc]
      | cons d b =>
          have hb' : '/' ∉ b := fun h => hb (List.mem_cons_of_mem _ h)
          simp [List.cons_prefix_cons, ih ha' hb', and_assoc]

private theorem prefix_append_spell {a b : Path} {segs : List Segment} (ha : '/' ∉ a) :
    a <+: b ++ spell segs ↔ a <+: b := by
  constructor
  · intro h
    induction a generalizing b with
    | nil => exact List.nil_prefix
    | cons c a ih =>
        have hc : c ≠ '/' := fun hc => ha (hc ▸ List.mem_cons_self)
        have ha' : '/' ∉ a := fun h => ha (List.mem_cons_of_mem _ h)
        cases b with
        | nil => cases segs <;> simp [spell, hc] at h
        | cons d b =>
            obtain ⟨rfl, htail⟩ := List.cons_prefix_cons.mp h
            exact List.cons_prefix_cons.mpr ⟨rfl, ih ha' htail⟩
  · intro h
    exact h.trans (List.prefix_append _ _)

/-- A string of directories ends inside a segment: it is a prefix of a path exactly when the path
goes through the same directories into a segment that begins like the last one. -/
theorem spell_prefix_iff {dirs segs : List Segment} {last : Segment}
    (hdirs : ∀ s ∈ dirs, '/' ∉ s) (hlast : '/' ∉ last) (hsegs : ∀ s ∈ segs, '/' ∉ s) :
    spell (dirs ++ [last]) <+: spell segs ↔
      ∃ name rest, segs = dirs ++ name :: rest ∧ last <+: name := by
  induction dirs generalizing segs with
  | nil =>
      cases segs with
      | nil => simp [spell]
      | cons name rest =>
          have hstart : spell [last] <+: spell (name :: rest) ↔ last <+: name ++ spell rest := by
            simp [spell]
          simp only [List.nil_append, hstart, prefix_append_spell hlast]
          constructor
          · intro h
            exact ⟨name, rest, rfl, h⟩
          · rintro ⟨name', rest', heq, h⟩
            cases heq
            exact h
  | cons d dirs ih =>
      obtain ⟨hd, hdirs⟩ := List.forall_mem_cons.mp hdirs
      have hleft : spell (d :: dirs ++ [last]) = '/' :: (d ++ spell (dirs ++ [last])) := rfl
      obtain ⟨x, hx⟩ : ∃ x, spell (dirs ++ [last]) = '/' :: x := by
        cases dirs <;> exact ⟨_, rfl⟩
      cases segs with
      | nil => simp [spell]
      | cons s segs =>
          obtain ⟨hs, hsegs⟩ := List.forall_mem_cons.mp hsegs
          have hright : spell (s :: segs) = '/' :: (s ++ spell segs) := rfl
          rw [hleft, hright, List.cons_prefix_cons]
          cases segs with
          | nil =>
              -- The path ends where the string goes on with a separator.
              constructor
              · rintro ⟨-, h⟩
                rw [hx] at h
                have hmem : '/' ∈ s ++ spell [] :=
                  h.subset (List.mem_append_right _ List.mem_cons_self)
                simp [spell, hs] at hmem
              · rintro ⟨name, rest, heq, -⟩
                have hlen := congrArg List.length heq
                simp at hlen
          | cons t segs =>
              have htail : spell (t :: segs) = '/' :: (t ++ spell segs) := rfl
              have hiff := ih hdirs hsegs
              rw [hx, htail, List.cons_prefix_cons] at hiff
              rw [hx, htail, prefix_slash hd hs]
              constructor
              · rintro ⟨-, rfl, h⟩
                obtain ⟨name, rest, heq, hname⟩ := hiff.mp ⟨rfl, h⟩
                exact ⟨name, rest, by rw [heq]; rfl, hname⟩
              · rintro ⟨name, rest, heq, hname⟩
                obtain ⟨hds, hrest⟩ := List.cons_eq_cons.mp heq
                exact ⟨rfl, hds.symm, (hiff.mpr ⟨name, rest, hrest, hname⟩).2⟩

variable {names segs : List Segment}

/-- The directory itself or a path below it. -/
def Within (dir p : Path) : Prop := p = dir ∨ dir ++ ['/'] <+: p

instance (dir p : Path) : Decidable (Within dir p) :=
  inferInstanceAs (Decidable (p = dir ∨ dir ++ ['/'] <+: p))

theorem Within.prefix {dir p : Path} (h : Within dir p) : dir <+: p := by
  rcases h with rfl | h
  · exact List.prefix_rfl
  · exact (List.prefix_append dir ['/']).trans h

/-- As strings, the paths that begin like a directory go through its parents into a segment that
begins like its name. -/
theorem absolute_prefix_iff {dirs : List Segment} {last : Segment}
    (hnames : ∀ s ∈ dirs ++ [last], IsName s) (hsegs : ∀ s ∈ segs, IsName s) :
    absolute (dirs ++ [last]) <+: absolute segs ↔
      ∃ name rest, segs = dirs ++ name :: rest ∧ last <+: name := by
  have hlast : IsName last := hnames last (List.mem_append_right _ List.mem_cons_self)
  rw [absolute_eq_spell (by simp)]
  by_cases hnil : segs = []
  · subst hnil
    constructor
    · intro h
      have hlen := h.length_le
      have hpos := List.length_pos_iff.mpr hlast.ne_nil
      simp [spell, absolute] at hlen
      omega
    · rintro ⟨name, rest, heq, -⟩
      simp at heq
  · rw [absolute_eq_spell hnil]
    apply spell_prefix_iff
    · intro s hs
      exact (hnames s (List.mem_append_left _ hs)).no_slash
    · exact hlast.no_slash
    · intro s hs
      exact (hsegs s hs).no_slash

/-- Lying within a directory is a matter of the names from the root. -/
theorem within_absolute_iff (hne : names ≠ []) (hnames : ∀ s ∈ names, IsName s)
    (hsegs : ∀ s ∈ segs, IsName s) :
    Within (absolute names) (absolute segs) ↔ names <+: segs := by
  have hbelow : absolute names ++ ['/'] <+: absolute segs ↔
      ∃ name rest, segs = names ++ name :: rest := by
    by_cases hnil : segs = []
    · subst hnil
      constructor
      · intro h
        have hlen := h.length_le
        simp [absolute] at hlen
      · rintro ⟨name, rest, heq⟩
        simp at heq
    · have hspell : absolute names ++ ['/'] = spell (names ++ [[]]) := by
        rw [absolute_eq_spell hne]
        simp [spell]
      rw [hspell, absolute_eq_spell hnil, spell_prefix_iff (fun s hs => (hnames s hs).no_slash)
        List.not_mem_nil fun s hs => (hsegs s hs).no_slash]
      simp
  constructor
  · rintro (heq | h)
    · exact (absolute_injective hsegs hnames heq) ▸ List.prefix_rfl
    · obtain ⟨name, rest, rfl⟩ := hbelow.mp h
      exact List.prefix_append _ _
  · rintro ⟨rest, rfl⟩
    cases rest with
    | nil =>
        rw [List.append_nil]
        exact .inl rfl
    | cons name rest => exact .inr (hbelow.mpr ⟨name, rest, rfl⟩)

end Prefixes

end Posix
