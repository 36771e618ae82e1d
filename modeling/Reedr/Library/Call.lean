import Mathlib.Tactic.Common

/-!
# Calls cut at their atomic statements

A call is a tree: it has returned, it has thrown, or it is about to execute one
atomic statement on the shared state and continues with the statement's reply.
The reply is either the statement's result or the error it was refused with,
so a call may catch the error; without a handler the call throws it.

## Implementation notes

Statements are data, so a run can record which ones were executed. What a
statement does to the shared state is not part of the call: the same call runs
alone, interleaved with others, or against a state that refuses statements.
-/

namespace Interleaving

/-- The atomic statements of a service and the type of each one's result. -/
structure Signature where
  Op : Type
  Res : Op → Type

/-- Statements of one service as statements of another. -/
structure Signature.Embedding (σ τ : Signature) where
  op : σ.Op → τ.Op
  res : ∀ o, τ.Res (op o) → σ.Res o

/-- A call returning `α` or throwing `ε`. -/
inductive Call (σ : Signature) (ε α : Type) where
  | done (a : α)
  | fail (e : ε)
  | step (o : σ.Op) (k : Except ε (σ.Res o) → Call σ ε α)

namespace Call
variable {σ : Signature} {ε α β : Type}

/-- Sequencing; a thrown error skips the continuation. -/
def bind : Call σ ε α → (α → Call σ ε β) → Call σ ε β
  | .done a, f => f a
  | .fail e, _ => .fail e
  | .step o k, f => .step o fun r => (k r).bind f

instance : Monad (Call σ ε) where
  pure := .done
  bind := bind

/-- Execute one statement; its refusal is thrown. -/
def perform (o : σ.Op) : Call σ ε (σ.Res o) :=
  .step o fun
    | .ok b => .done b
    | .error e => .fail e

/-- Run the handler on the error a call throws. -/
def recover : Call σ ε α → (ε → Call σ ε α) → Call σ ε α
  | .done a, _ => .done a
  | .fail e, h => h e
  | .step o k, h => .step o fun r => (k r).recover h

/-- The value of an optional row, or the error thrown in its absence. -/
def required (x : Option α) (e : ε) : Call σ ε α :=
  match x with
  | some a => .done a
  | none => .fail e

/-- A guard: continue when `p` holds and throw otherwise. -/
def ensure (p : Prop) [Decidable p] (e : ε) : Call σ ε Unit :=
  if p then .done () else .fail e

/-- Run a call for each entry of a list, in order. -/
def forEach (l : List α) (f : α → Call σ ε Unit) : Call σ ε Unit :=
  match l with
  | [] => .done ()
  | a :: rest => bind (f a) fun _ => forEach rest f

/-- Run one call after another, whether the first returned or threw; the first
error is thrown at the end. -/
def both : Call σ ε α → Call σ ε Unit → Call σ ε Unit
  | .done _, d => d
  | .fail e, d => bind (recover d fun _ => .done ()) fun _ => .fail e
  | .step o k, d => .step o fun r => both (k r) d

/-- Run a call for each entry of a list, in order and every one to its end. -/
def all (l : List α) (f : α → Call σ ε Unit) : Call σ ε Unit :=
  match l with
  | [] => .done ()
  | a :: rest => both (f a) (all rest f)

/-- Forget what a call returns. -/
def void (c : Call σ ε α) : Call σ ε Unit := bind c fun _ => .done ()

/-- The finished call with a given outcome. -/
def ofExcept : Except ε α → Call σ ε α
  | .ok a => .done a
  | .error e => .fail e

instance : LawfulMonad (Call σ ε) := by
  refine LawfulMonad.mk' (Call σ ε) (fun c => ?_) (fun _ _ => rfl) fun c f g => ?_
  · induction c with
    | done a => rfl
    | fail e => rfl
    | step o k ih => exact congrArg (Call.step o) (funext ih)
  · induction c with
    | done a => rfl
    | fail e => rfl
    | step o k ih => exact congrArg (Call.step o) (funext ih)

theorem ofExcept_injective {r r' : Except ε α}
    (h : (ofExcept r : Call σ ε α) = ofExcept r') : r = r' := by
  cases r <;> cases r' <;> cases h <;> rfl

/-- A call of one service made by another. -/
def embed {τ : Signature} (m : Signature.Embedding σ τ) : Call σ ε α → Call τ ε α
  | .done a => .done a
  | .fail e => .fail e
  | .step o k => .step (m.op o) fun r => (k (r.map (m.res o))).embed m

/-- The call has returned. -/
def returned : Call σ ε α → Bool
  | .done _ => true
  | _ => false

/-- The call has returned or thrown. -/
def ended : Call σ ε α → Bool
  | .step _ _ => false
  | _ => true

@[simp] theorem done_bind (a : α) (f : α → Call σ ε β) : (Call.done a >>= f) = f a := rfl

@[simp] theorem fail_bind (e : ε) (f : α → Call σ ε β) :
    ((Call.fail e : Call σ ε α) >>= f) = .fail e := rfl

@[simp] theorem step_bind (o : σ.Op) (k : Except ε (σ.Res o) → Call σ ε α)
    (f : α → Call σ ε β) : (Call.step o k >>= f) = .step o fun r => k r >>= f := rfl

@[simp] theorem required_some (a : α) (e : ε) :
    (required (some a) e : Call σ ε α) = .done a := rfl

@[simp] theorem required_none (e : ε) : (required none e : Call σ ε α) = .fail e := rfl

/-- After a call that catches its refusal the other one just follows. -/
theorem recover_done_both (o : σ.Op) (g : ε → σ.Res o) (d : Call σ ε Unit) :
    ((perform o).recover fun e => .done (g e) : Call σ ε (σ.Res o)).both d =
      (perform o).recover (fun e => .done (g e)) >>= fun _ => d :=
  congrArg (Call.step o) (funext fun r => by cases r <;> rfl)

theorem void_eq (c : Call σ ε α) : c.void = c >>= fun _ => .done () := rfl

/-- Every statement a call may execute, whatever the replies, satisfies `P`. -/
def Uses (P : σ.Op → Prop) : Call σ ε α → Prop
  | .done _ => True
  | .fail _ => True
  | .step o k => P o ∧ ∀ r, (k r).Uses P

section Uses
variable {P : σ.Op → Prop}

theorem Uses.bind {c : Call σ ε α} {f : α → Call σ ε β} (hc : c.Uses P)
    (hf : ∀ a, (f a).Uses P) : (c >>= f).Uses P := by
  induction c with
  | done a => exact hf a
  | fail e => trivial
  | step o k ih => exact ⟨hc.1, fun r => ih r (hc.2 r)⟩

theorem Uses.mono {Q : σ.Op → Prop} {c : Call σ ε α} (hc : c.Uses P) (h : ∀ o, P o → Q o) :
    c.Uses Q := by
  induction c with
  | done a => trivial
  | fail e => trivial
  | step o k ih => exact ⟨h o hc.1, fun r => ih r (hc.2 r)⟩

theorem Uses.any (c : Call σ ε α) : c.Uses fun _ => True := by
  induction c with
  | done a => trivial
  | fail e => trivial
  | step o k ih => exact ⟨trivial, fun r => ih r⟩

theorem Uses.perform {o : σ.Op} (h : P o) : (perform o : Call σ ε (σ.Res o)).Uses P :=
  ⟨h, fun r => by cases r <;> trivial⟩

theorem Uses.required (x : Option α) (e : ε) : (required x e : Call σ ε α).Uses P := by
  cases x <;> trivial

theorem Uses.ensure (p : Prop) [Decidable p] (e : ε) :
    (ensure p e : Call σ ε Unit).Uses P := by
  unfold Call.ensure
  split <;> trivial

theorem Uses.recover {c : Call σ ε α} {h : ε → Call σ ε α} (hc : c.Uses P)
    (hh : ∀ e, (h e).Uses P) : (c.recover h).Uses P := by
  induction c with
  | done a => trivial
  | fail e => exact hh e
  | step o k ih => exact ⟨hc.1, fun r => ih r (hc.2 r)⟩

theorem Uses.forEach {l : List α} {f : α → Call σ ε Unit} (hf : ∀ a ∈ l, (f a).Uses P) :
    (forEach l f).Uses P := by
  induction l with
  | nil => trivial
  | cons a rest ih =>
      exact Uses.bind (hf a List.mem_cons_self)
        fun _ => ih fun b hb => hf b (List.mem_cons_of_mem a hb)

theorem Uses.both {c : Call σ ε α} {d : Call σ ε Unit} (hc : c.Uses P) (hd : d.Uses P) :
    (c.both d).Uses P := by
  induction c with
  | done a => exact hd
  | fail e => exact Uses.bind (Uses.recover hd fun _ => trivial) fun _ => trivial
  | step o k ih => exact ⟨hc.1, fun r => ih r (hc.2 r)⟩

theorem Uses.all {l : List α} {f : α → Call σ ε Unit} (hf : ∀ a ∈ l, (f a).Uses P) :
    (all l f).Uses P := by
  induction l with
  | nil => trivial
  | cons a rest ih =>
      exact Uses.both (hf a List.mem_cons_self) (ih fun b hb => hf b (List.mem_cons_of_mem a hb))

theorem Uses.ofExcept (r : Except ε α) : (ofExcept r : Call σ ε α).Uses P := by
  cases r <;> trivial

theorem Uses.embed {τ : Signature} {m : Signature.Embedding σ τ} {Q : τ.Op → Prop}
    (hQ : ∀ o, P o → Q (m.op o)) {c : Call σ ε α} (hc : c.Uses P) : (c.embed m).Uses Q := by
  induction c with
  | done a => trivial
  | fail e => trivial
  | step o k ih => exact ⟨hQ o hc.1, fun r => ih _ (hc.2 _)⟩

theorem Uses.void {c : Call σ ε α} (hc : c.Uses P) : c.void.Uses P :=
  Uses.bind hc fun _ => trivial

end Uses

end Call

/-- A service: the call behind each invocation, what a statement does to the
shared state, and which statements leave the process and may be refused there. -/
structure System (σ : Signature) (ε S Inv : Type) where
  code : Inv → Call σ ε Unit
  exec : (o : σ.Op) → S → Except ε (σ.Res o × S)
  external : σ.Op → Bool
  outage : ε

/-- The same service with everything outside its process in reach. -/
def System.reliable {σ : Signature} {ε S Inv : Type} (sys : System σ ε S Inv) :
    System σ ε S Inv :=
  { sys with external := fun _ => false }

/-- One executed statement: by which call, for which invocation, in which state. -/
structure Commit (σ : Signature) (S Inv : Type) where
  call : Nat
  inv : Inv
  op : σ.Op
  before : S

/-- The shared state together with the history of the statements executed so far. -/
structure World (σ : Signature) (S Inv : Type) where
  shared : S
  trace : List (Commit σ S Inv)

namespace World
variable {σ : Signature} {S Inv : Type}

/-- The world before any statement. -/
def init (s : S) : World σ S Inv := ⟨s, []⟩

/-- Record that call `n` executed `o` for `i`, which led to the shared state `s`. -/
def commit (w : World σ S Inv) (n : Nat) (i : Inv) (o : σ.Op) (s : S) : World σ S Inv :=
  ⟨s, w.trace ++ [⟨n, i, o, w.shared⟩]⟩

@[simp] theorem init_shared (s : S) : (init s : World σ S Inv).shared = s := rfl

@[simp] theorem init_trace (s : S) : (init s : World σ S Inv).trace = [] := rfl

@[simp] theorem commit_shared (w : World σ S Inv) (n : Nat) (i : Inv) (o : σ.Op) (s : S) :
    (w.commit n i o s).shared = s := rfl

@[simp] theorem commit_trace (w : World σ S Inv) (n : Nat) (i : Inv) (o : σ.Op) (s : S) :
    (w.commit n i o s).trace = w.trace ++ [⟨n, i, o, w.shared⟩] := rfl

theorem mem_commit {w : World σ S Inv} {n : Nat} {i : Inv} {o : σ.Op} {s : S}
    {c : Commit σ S Inv} :
    c ∈ (w.commit n i o s).trace ↔ c ∈ w.trace ∨ c = ⟨n, i, o, w.shared⟩ := by
  rw [commit_trace, List.mem_append, List.mem_singleton]

/-- Every statement executed so far met `Q` in the world it was executed in. -/
def AllExecuted (w : World σ S Inv) (Q : World σ S Inv → Inv → σ.Op → Prop) : Prop :=
  ∀ k < w.trace.length, ∀ c ∈ w.trace[k]?, Q ⟨c.before, w.trace.take k⟩ c.inv c.op

instance (w : World σ S Inv) (Q : World σ S Inv → Inv → σ.Op → Prop)
    [∀ w i o, Decidable (Q w i o)] : Decidable (w.AllExecuted Q) :=
  inferInstanceAs (Decidable (∀ k < w.trace.length, ∀ c ∈ w.trace[k]?, _))

theorem allExecuted_init (s : S) (Q : World σ S Inv → Inv → σ.Op → Prop) :
    (init s : World σ S Inv).AllExecuted Q :=
  fun _ hk => absurd hk (Nat.not_lt_zero _)

theorem allExecuted_commit {w : World σ S Inv} {n : Nat} {i : Inv} {o : σ.Op} {s : S}
    {Q : World σ S Inv → Inv → σ.Op → Prop} :
    (w.commit n i o s).AllExecuted Q ↔ w.AllExecuted Q ∧ Q w i o := by
  have hold (k : Nat) (hk : k < w.trace.length) : (w.commit n i o s).trace[k]? = w.trace[k]? ∧
      (w.commit n i o s).trace.take k = w.trace.take k := by
    rw [commit_trace, List.getElem?_append_left hk, List.take_append_of_le_length (Nat.le_of_lt hk)]
    exact ⟨rfl, rfl⟩
  have hlast : (w.commit n i o s).trace[w.trace.length]? = some ⟨n, i, o, w.shared⟩ ∧
      (w.commit n i o s).trace.take w.trace.length = w.trace := by simp
  have hlength : (w.commit n i o s).trace.length = w.trace.length + 1 := by simp
  constructor
  · intro h
    constructor
    · intro k hk c hc
      have := h k (by omega) c ((hold k hk).1 ▸ hc)
      rwa [(hold k hk).2] at this
    · have := h w.trace.length (by omega) _ hlast.1
      rwa [hlast.2] at this
  · rintro ⟨h, hQ⟩ k hk c hc
    by_cases hlt : k < w.trace.length
    · rw [(hold k hlt).2]
      exact h k hlt c ((hold k hlt).1 ▸ hc)
    · obtain rfl : k = w.trace.length := by omega
      rw [hlast.1] at hc
      rw [hlast.2]
      cases hc
      exact hQ

theorem AllExecuted.imp₂ {w : World σ S Inv} {P Q R : World σ S Inv → Inv → σ.Op → Prop}
    (hP : w.AllExecuted P) (hQ : w.AllExecuted Q) (h : ∀ w i o, P w i o → Q w i o → R w i o) :
    w.AllExecuted R :=
  fun k hk c hc => h _ _ _ (hP k hk c hc) (hQ k hk c hc)

/-- `K` holds, and held whenever a statement was executed. -/
def Always (w : World σ S Inv) (K : World σ S Inv → Prop) : Prop :=
  K w ∧ w.AllExecuted fun w _ _ => K w

instance (w : World σ S Inv) (K : World σ S Inv → Prop) [∀ w, Decidable (K w)] :
    Decidable (w.Always K) :=
  inferInstanceAs (Decidable (_ ∧ _))

theorem Always.now {w : World σ S Inv} {K : World σ S Inv → Prop} (h : w.Always K) : K w := h.1

theorem always_init {s : S} {K : World σ S Inv → Prop} (h : K (init s)) :
    (init s : World σ S Inv).Always K :=
  ⟨h, allExecuted_init s _⟩

theorem always_commit {w : World σ S Inv} {n : Nat} {i : Inv} {o : σ.Op} {s : S}
    {K : World σ S Inv → Prop} :
    (w.commit n i o s).Always K ↔ w.Always K ∧ K (w.commit n i o s) := by
  unfold Always
  rw [allExecuted_commit]
  constructor
  · rintro ⟨hnow, hall, hK⟩
    exact ⟨⟨hK, hall⟩, hnow⟩
  · rintro ⟨⟨hK, hall⟩, hnow⟩
    exact ⟨hnow, hall, hK⟩

end World

end Interleaving
