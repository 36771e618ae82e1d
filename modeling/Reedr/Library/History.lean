import Mathlib.Data.List.DropRight
import Reedr.Library.Thread

/-!
# What has happened since

The part of a history that comes after the last statement of some kind, and what
it says about the shared state: what no statement since has touched is as that
statement met it.
-/

namespace Interleaving
variable {σ : Signature} {ε S Inv β : Type}

namespace World

/-- The statements executed after the last one with `p`; all of them, if there is
none. -/
def since (w : World σ S Inv) (p : Commit σ S Inv → Bool) : List (Commit σ S Inv) :=
  w.trace.rtakeWhile fun c => !p c

theorem exists_since {w : World σ S Inv} {p : Commit σ S Inv → Bool} (h : ∃ c ∈ w.trace, p c) :
    ∃ before c, w.trace = before ++ c :: w.since p ∧ p c = true := by
  have hne : w.trace.rdropWhile (fun c => !p c) ≠ [] := by
    intro hnil
    obtain ⟨c, hc, hpc⟩ := h
    have := List.rdropWhile_eq_nil_iff.mp hnil c hc
    simp [hpc] at this
  refine ⟨(w.trace.rdropWhile fun c => !p c).dropLast,
    (w.trace.rdropWhile fun c => !p c).getLast hne, ?_, ?_⟩
  · rw [List.append_cons, List.dropLast_append_getLast hne]
    exact List.rdropWhile_append_rtakeWhile.symm
  · simpa using List.rdropWhile_last_not (fun c => !p c) w.trace hne

theorem not_of_mem_since {w : World σ S Inv} {p : Commit σ S Inv → Bool} {c : Commit σ S Inv}
    (h : c ∈ w.since p) : p c = false := by
  simpa using List.mem_rtakeWhile_imp h

/-- What a call remembers last is where the history since then begins. -/
theorem exists_since_latest {w : World σ S Inv} {n : Nat} {p : σ.Op → Bool} {x : σ.Op × S}
    (h : latest p (memory n w.trace) = some x) :
    ∃ before c, w.trace = before ++ c :: w.since (fun c => c.call = n ∧ p c.op) ∧ c.call = n ∧
      (c.op, c.before) = x := by
  obtain ⟨hmem, hp⟩ := mem_of_latest h
  obtain ⟨d, hd, hn, rfl⟩ := mem_memory.mp hmem
  obtain ⟨before, c, hsplit, hc⟩ := exists_since (w := w)
    (p := fun c => c.call = n ∧ p c.op) ⟨d, hd, by simp [hn, hp]⟩
  refine ⟨before, c, hsplit, (of_decide_eq_true hc).1, ?_⟩
  have hmemory : memory n w.trace = memory n before ++
      (c.op, c.before) :: memory n (w.since fun c => c.call = n ∧ p c.op) := by
    rw [hsplit, memory_append]
    simp [memory, (of_decide_eq_true hc).1]
  rw [hmemory, latest_eq_some _ (of_decide_eq_true hc).2] at h
  · exact Option.some.inj h
  · intro y hy
    obtain ⟨e, he, hen, rfl⟩ := mem_memory.mp hy
    simpa [hen] using not_of_mem_since he

/-- A split of a history with one more statement: at that statement, or before it. -/
theorem split_snoc {α : Type} {l before after : List α} {c d : α}
    (h : l ++ [d] = before ++ c :: after) :
    (l = before ∧ d = c ∧ after = []) ∨
      ∃ after', after = after' ++ [d] ∧ l = before ++ c :: after' := by
  rcases List.eq_nil_or_concat after with rfl | ⟨after', e, rfl⟩
  · obtain ⟨rfl, hlast⟩ := List.append_inj' h rfl
    cases hlast
    exact Or.inl ⟨rfl, rfl, rfl⟩
  · rw [List.concat_eq_append] at h ⊢
    rw [← List.cons_append, ← List.append_assoc] at h
    obtain ⟨rfl, hlast⟩ := List.append_inj' h rfl
    cases hlast
    exact Or.inr ⟨after', rfl, rfl⟩

/-- Of two statements of a history, one that is not from the other on is before it. -/
theorem split_before {α : Type} {l₁ l₂ l₃ l₄ : List α} {c d : α}
    (h : l₁ ++ c :: l₂ = l₃ ++ d :: l₄) (hc : c ∉ d :: l₄) :
    ∃ mid, l₃ = l₁ ++ c :: mid ∧ l₂ = mid ++ d :: l₄ := by
  rcases List.append_eq_append_iff.mp h with ⟨e, rfl, he⟩ | ⟨e, rfl, he⟩
  · cases e with
    | nil =>
        cases he
        exact absurd List.mem_cons_self hc
    | cons x mid =>
        cases he
        exact ⟨mid, rfl, rfl⟩
  · exact absurd (he ▸ List.mem_append_right e List.mem_cons_self) hc

theorem Always.before {w : World σ S Inv} {K : World σ S Inv → Prop} (h : w.Always K)
    {before after : List (Commit σ S Inv)} {c : Commit σ S Inv}
    (hsplit : w.trace = before ++ c :: after) : K ⟨c.before, before⟩ := by
  have := h.2 before.length (by simp [hsplit]) c (by simp [hsplit])
  simpa [hsplit] using this

/-- It held in every state that a call remembers. -/
theorem Always.of_memory {w : World σ S Inv} {K : World σ S Inv → Prop} (h : w.Always K) {n : Nat}
    {x : σ.Op × S} (hx : x ∈ memory n w.trace) : ∃ trace, K ⟨x.2, trace⟩ := by
  obtain ⟨c, hc, -, rfl⟩ := mem_memory.mp hx
  obtain ⟨before, after, hsplit⟩ := List.append_of_mem hc
  exact ⟨before, h.before hsplit⟩

/-- Whatever the statements from `c` on have not touched is as `c` met it. -/
def Traced (f : S → β) (touches : σ.Op → Bool) (w : World σ S Inv) : Prop :=
  ∀ before c after, w.trace = before ++ c :: after →
    (∀ d ∈ c :: after, touches d.op = false) → f c.before = f w.shared

theorem traced_init (f : S → β) (touches : σ.Op → Bool) (s : S) :
    Traced f touches (init s : World σ S Inv) :=
  fun before c after h => absurd h.symm (by simp)

theorem Traced.commit {f : S → β} {touches : σ.Op → Bool} {w : World σ S Inv}
    (h : w.Traced f touches) {n : Nat} {i : Inv} {o : σ.Op} {s : S}
    (hkeep : touches o = false → f s = f w.shared) : (w.commit n i o s).Traced f touches := by
  intro before c after hsplit hall
  rw [commit_shared]
  rcases split_snoc hsplit with ⟨rfl, rfl, rfl⟩ | ⟨after', rfl, hold⟩
  · exact (hkeep (hall _ List.mem_cons_self)).symm
  · have hnew : touches o = false := hall ⟨n, i, o, w.shared⟩ (by simp)
    rw [hkeep hnew]
    exact h before c after' hold fun d hd => hall d (List.mem_append_left _ hd)

/-- The shared state at a point of the history: before statement `k`, or after all of
them. -/
def moment (w : World σ S Inv) (k : Nat) : S := (w.trace[k]?.map fun c => c.before).getD w.shared

/-- The call that executed statement `k` of the history. -/
def callAt (w : World σ S Inv) (k : Nat) : Option Nat := w.trace[k]?.map fun c => c.call

theorem callAt_commit {w : World σ S Inv} {n k : Nat} {i : Inv} {o : σ.Op} {s : S}
    (hk : k < w.trace.length) : (w.commit n i o s).callAt k = w.callAt k := by
  simp [callAt, List.getElem?_append_left hk]

theorem callAt_commit_last (w : World σ S Inv) (n : Nat) (i : Inv) (o : σ.Op) (s : S) :
    (w.commit n i o s).callAt w.trace.length = some n := by
  simp [callAt]

/-- Any two consecutive states of the history are related. -/
def StepsBy (R : S → S → Prop) (w : World σ S Inv) : Prop :=
  ∀ k < w.trace.length, R (w.moment k) (w.moment (k + 1))

section StepsBy
variable {R : S → S → Prop} {w : World σ S Inv} {n : Nat} {i : Inv} {o : σ.Op} {s : S}

theorem moment_of_le {k : Nat} (hk : w.trace.length ≤ k) : w.moment k = w.shared := by
  simp [moment, List.getElem?_eq_none hk]

/-- A new statement does not change what was before it. -/
theorem moment_commit {k : Nat} (hk : k ≤ w.trace.length) :
    (w.commit n i o s).moment k = w.moment k := by
  rcases Nat.lt_or_eq_of_le hk with hlt | rfl
  · simp [moment, List.getElem?_append_left hlt, List.getElem?_eq_getElem hlt]
  · simp [moment]

theorem stepsBy_init (R : S → S → Prop) (s : S) : (init s : World σ S Inv).StepsBy R :=
  fun _ hk => absurd hk (Nat.not_lt_zero _)

theorem StepsBy.commit (h : w.StepsBy R) (hR : R w.shared s) : (w.commit n i o s).StepsBy R := by
  intro k hk
  rw [commit_trace, List.length_append, List.length_singleton] at hk
  rw [moment_commit (Nat.le_of_lt_succ hk)]
  by_cases hlt : k < w.trace.length
  · rw [moment_commit hlt]
    exact h k hlt
  · obtain rfl : k = w.trace.length := by omega
    have hlast : (w.commit n i o s).moment (w.trace.length + 1) = s := moment_of_le (by simp)
    rw [moment_of_le (Nat.le_refl _), hlast]
    exact hR

/-- After the last statement the state stays as it is. -/
theorem StepsBy.at (h : w.StepsBy R) (hrefl : ∀ s, R s s) (k : Nat) :
    R (w.moment k) (w.moment (k + 1)) := by
  by_cases hk : k < w.trace.length
  · exact h k hk
  · rw [moment_of_le (by omega), moment_of_le (by omega)]
    exact hrefl _

/-- What relates any two consecutive states relates an earlier to a later one. -/
theorem StepsBy.of_le (h : w.StepsBy R) (hrefl : ∀ s, R s s)
    (htrans : ∀ {s₁ s₂ s₃}, R s₁ s₂ → R s₂ s₃ → R s₁ s₃) {k m : Nat} (hkm : k ≤ m) :
    R (w.moment k) (w.moment m) := by
  induction m, hkm using Nat.le_induction with
  | base => exact hrefl _
  | succ m _ ih => exact htrans ih (h.at hrefl m)

end StepsBy

end World

/-- What a run executes, it executes in states that come after the one it starts from. -/
theorem run_trace_after {sys : System σ ε S Inv} {R : S → S → Prop} (hrefl : ∀ s, R s s)
    (htrans : ∀ {s₁ s₂ s₃}, R s₁ s₂ → R s₂ s₃ → R s₁ s₃)
    (hexec : ∀ {o s b s'}, sys.exec o s = .ok (b, s') → R s s')
    (p : Pool σ ε S Inv) (ms : List (Move Inv)) :
    ∃ after, (p.run sys ms).world.trace = p.world.trace ++ after ∧
      (∀ c ∈ after, R p.world.shared c.before) ∧ R p.world.shared (p.run sys ms).world.shared := by
  induction ms generalizing p with
  | nil => exact ⟨[], (List.append_nil _).symm, nofun, hrefl _⟩
  | cons m ms ih =>
      obtain ⟨after, htrace, hafter, hlast⟩ := ih (p.step sys m)
      rcases p.step_world sys m with ⟨n, i, o, b, s, hc, hw⟩ | ⟨hw, -⟩
      · have hs : R p.world.shared s := hexec hc.effect
        rw [hw, World.commit_shared] at hafter hlast
        refine ⟨⟨n, i, o, p.world.shared⟩ :: after, ?_, ?_, htrans hs hlast⟩
        · rw [Pool.run_cons, htrace, hw, World.commit_trace, List.append_assoc,
            List.singleton_append]
        · intro c hc
          rcases List.mem_cons.mp hc with rfl | hc
          · exact hrefl _
          · exact htrans hs (hafter c hc)
      · rw [hw] at htrace hafter hlast
        exact ⟨after, htrace, hafter, hlast⟩

/-- So it is in every interleaving, if every other statement keeps it. -/
theorem traced_run {sys : System σ ε S Inv} {f : S → β} {touches : σ.Op → Bool}
    (hkeep : ∀ {o s b s'}, touches o = false → sys.exec o s = .ok (b, s') → f s' = f s)
    {p : Pool σ ε S Inv} (hp : p.world.Traced f touches) (ms : List (Move Inv)) :
    (p.run sys ms).world.Traced f touches := by
  induction ms generalizing p with
  | nil => exact hp
  | cons m ms ih =>
      apply ih
      rcases p.step_world sys m with ⟨n, i, o, b, s, hc, hw⟩ | ⟨hw, -⟩
      · rw [hw]
        exact hp.commit fun ho => hkeep ho hc.effect
      · rwa [hw]

end Interleaving
