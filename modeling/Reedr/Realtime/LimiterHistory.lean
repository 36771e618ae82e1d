import Mathlib.Data.List.DropRight
import Reedr.Realtime.WsRateLimiter

/-!
# A limiter against the history of its calls

The limiter forgets a timestamp as soon as it has left the window. This module
keeps the calls with their answers instead, dropping nothing, and shows that an
answer is the one the history gives.
-/

namespace Reedr
open SlidingWindow

/-- A call on a limiter; `now` is what the clock shows. -/
inductive LimiterCall where
  | consume (key : Id) (now : Millis)
  | clear (key : Id)
  deriving DecidableEq, Repr

/-- A call that has been made, with its answer. -/
inductive LimiterEvent where
  | consumed (key : Id) (now : Millis) (allowed : Bool)
  | cleared (key : Id)
  deriving DecidableEq, Repr

namespace LimiterCall

def key : LimiterCall → Id
  | consume key _ => key
  | clear key => key

/-- Clearing a key does not read the clock. -/
def time? : LimiterCall → Option Millis
  | consume _ now => some now
  | clear _ => none

end LimiterCall

/-- The clock of a list of calls never goes back. -/
def ClockAscends (calls : List LimiterCall) : Prop :=
  (calls.filterMap LimiterCall.time?).Pairwise (· ≤ ·)

instance (calls : List LimiterCall) : Decidable (ClockAscends calls) :=
  inferInstanceAs (Decidable (List.Pairwise _ _))

/-- The time of an allowed call with the key. -/
def LimiterEvent.acceptedAt (key : Id) : LimiterEvent → Option Millis
  | consumed key' now true => if key' = key then some now else none
  | _ => none

/-- The times of the calls with a key that were allowed since it was last cleared. -/
def acceptedSinceClear (key : Id) (history : List LimiterEvent) : List Millis :=
  (history.rtakeWhile (· ≠ .cleared key)).filterMap (LimiterEvent.acceptedAt key)

/-- A limiter and all the calls made on it, the newest last. -/
structure LimiterRun where
  limiter : WsRateLimiter
  history : List LimiterEvent

namespace LimiterRun

def call (r : LimiterRun) : LimiterCall → LimiterRun
  | .consume key now =>
      let answer := r.limiter.consume key now
      ⟨answer.2, r.history ++ [.consumed key now answer.1]⟩
  | .clear key => ⟨r.limiter.clear key, r.history ++ [.cleared key]⟩

/-- A new limiter after a list of calls. -/
def after (limit : Nat) (windowMs : Millis) (calls : List LimiterCall) : LimiterRun :=
  calls.foldl call ⟨{ limit, windowMs }, []⟩

end LimiterRun

section History
variable {key : Id} {history : List LimiterEvent} {now : Millis}

theorem acceptedSinceClear_consumed (allowed : Bool) :
    acceptedSinceClear key (history ++ [.consumed key now allowed]) =
      acceptedSinceClear key history ++ if allowed then [now] else [] := by
  unfold acceptedSinceClear
  rw [List.rtakeWhile_concat_pos _ _ _ (by simp), List.filterMap_append]
  cases allowed <;> simp [LimiterEvent.acceptedAt]

theorem acceptedSinceClear_cleared :
    acceptedSinceClear key (history ++ [.cleared key]) = [] := by
  unfold acceptedSinceClear
  rw [List.rtakeWhile_concat_neg _ _ _ (by simp)]
  rfl

/-- A call with another key is not among those that count for this one. -/
theorem acceptedSinceClear_consumed_of_ne {other : Id} (h : other ≠ key) (allowed : Bool) :
    acceptedSinceClear key (history ++ [.consumed other now allowed]) =
      acceptedSinceClear key history := by
  unfold acceptedSinceClear
  rw [List.rtakeWhile_concat_pos _ _ _ (by simp), List.filterMap_append]
  cases allowed <;> simp [LimiterEvent.acceptedAt, h]

theorem acceptedSinceClear_cleared_of_ne {other : Id} (h : other ≠ key) :
    acceptedSinceClear key (history ++ [.cleared other]) = acceptedSinceClear key history := by
  unfold acceptedSinceClear
  rw [List.rtakeWhile_concat_pos _ _ _ (by simpa using h), List.filterMap_append]
  simp [LimiterEvent.acceptedAt]

end History

/-- The limiter accounts for what the history holds of each key, none of it made
later than `now`, and keeps no more of it than its limit. -/
structure LimiterRun.Tracks (limit : Nat) (windowMs now : Millis) (r : LimiterRun) : Prop where
  limit_eq : r.limiter.limit = limit
  windowMs_eq : r.limiter.windowMs = windowMs
  accounts : ∀ key, r.limiter.Accounts key (acceptedSinceClear key r.history) now
  past : ∀ key, ∀ t ∈ acceptedSinceClear key r.history, t ≤ now
  bounded : ∀ key, (r.limiter.hits key).length ≤ r.limiter.limit

namespace LimiterRun.Tracks
variable {limit : Nat} {windowMs now later : Millis} {r : LimiterRun}

theorem mono (h : r.Tracks limit windowMs now) (hlater : now ≤ later) :
    r.Tracks limit windowMs later :=
  { h with
    accounts := fun key => (h.accounts key).mono hlater
    past := fun key t ht => Nat.le_trans (h.past key t ht) hlater }

theorem consume (h : r.Tracks limit windowMs now) (key : Id) :
    (r.call (.consume key now)).Tracks limit windowMs now := by
  constructor
  · exact (WsRateLimiter.consume_limit r.limiter now).trans h.limit_eq
  · exact (WsRateLimiter.consume_windowMs r.limiter now).trans h.windowMs_eq
  · intro other
    simp only [call]
    by_cases hkey : other = key
    · subst hkey
      rw [acceptedSinceClear_consumed]
      exact (h.accounts other).consume
    · rw [acceptedSinceClear_consumed_of_ne (Ne.symm hkey)]
      exact (h.accounts other).consume_of_ne hkey
  · intro other t ht
    simp only [call] at ht
    by_cases hkey : other = key
    · subst hkey
      rw [acceptedSinceClear_consumed, List.mem_append] at ht
      rcases ht with hold | hnew
      · exact h.past other t hold
      · split at hnew
        · exact Nat.le_of_eq (List.mem_singleton.mp hnew)
        · cases hnew
    · rw [acceptedSinceClear_consumed_of_ne (Ne.symm hkey)] at ht
      exact h.past other t ht
  · intro other
    simp only [call, WsRateLimiter.consume_limit]
    exact WsRateLimiter.hits_consume_length r.limiter now h.bounded

theorem clear (h : r.Tracks limit windowMs now) (key : Id) :
    (r.call (.clear key)).Tracks limit windowMs now := by
  constructor
  · exact h.limit_eq
  · exact h.windowMs_eq
  · intro other
    simp only [call]
    by_cases hkey : other = key
    · subst hkey
      rw [acceptedSinceClear_cleared]
      exact .cleared r.limiter other now
    · rw [acceptedSinceClear_cleared_of_ne (Ne.symm hkey)]
      exact (h.accounts other).clear_of_ne hkey
  · intro other t ht
    simp only [call] at ht
    by_cases hkey : other = key
    · subst hkey
      rw [acceptedSinceClear_cleared] at ht
      cases ht
    · rw [acceptedSinceClear_cleared_of_ne (Ne.symm hkey)] at ht
      exact h.past other t ht
  · intro other
    simp only [call]
    by_cases hkey : other = key
    · subst hkey
      rw [WsRateLimiter.hits_clear_self]
      exact Nat.zero_le _
    · rw [WsRateLimiter.hits_clear_of_ne _ hkey]
      exact h.bounded other

/-- A call is allowed while the window holds fewer accepted ones than the limit. -/
theorem allows_iff (h : r.Tracks limit windowMs now) (key : Id) :
    (r.limiter.consume key now).1 = true ↔
      (window windowMs now (acceptedSinceClear key r.history)).length < limit := by
  rw [(h.accounts key).allows_iff, window_eq_counting (h.past key), h.limit_eq, h.windowMs_eq]

end LimiterRun.Tracks

namespace LimiterRun
variable {limit : Nat} {windowMs : Millis} {calls : List LimiterCall}

theorem after_append (c : LimiterCall) :
    after limit windowMs (calls ++ [c]) = (after limit windowMs calls).call c := by
  simp [after, List.foldl_append]

end LimiterRun

namespace ClockAscends
variable {calls : List LimiterCall} {c : LimiterCall} {now : Millis}

theorem init (h : ClockAscends (calls ++ [c])) : ClockAscends calls := by
  unfold ClockAscends at h ⊢
  rw [List.filterMap_append] at h
  exact (List.pairwise_append.mp h).1

/-- No call shows a later time than the one after it. -/
theorem last_le (h : ClockAscends (calls ++ [c])) {t : Millis} (ht : c.time? = some t) :
    ∀ u ∈ calls.filterMap LimiterCall.time?, u ≤ t := by
  unfold ClockAscends at h
  rw [List.filterMap_append, List.pairwise_append] at h
  intro u hu
  exact h.2.2 u hu t (by simp [ht])

end ClockAscends

/-- Whatever is asked of a new limiter, it accounts for its whole history. -/
theorem tracks_after (limit : Nat) (windowMs : Millis) {calls : List LimiterCall}
    (hclock : ClockAscends calls) {now : Millis}
    (hnow : ∀ t ∈ calls.filterMap LimiterCall.time?, t ≤ now) :
    (LimiterRun.after limit windowMs calls).Tracks limit windowMs now := by
  induction calls using List.reverseRecOn generalizing now with
  | nil =>
      refine ⟨rfl, rfl, fun key => rfl, fun key t ht => ?_, fun key => Nat.zero_le _⟩
      cases ht
  | append_singleton calls c ih =>
      rw [LimiterRun.after_append]
      cases c with
      | consume key t =>
          have hbefore := ih hclock.init (hclock.last_le rfl)
          have ht : t ≤ now := hnow t (by simp [LimiterCall.time?])
          exact (hbefore.consume key).mono ht
      | clear key =>
          apply LimiterRun.Tracks.clear
          apply ih hclock.init
          intro t ht
          exact hnow t (by rw [List.filterMap_append]; exact List.mem_append_left _ ht)

section Apart
variable (limit : Nat) (windowMs : Millis) (key : Id)

@[simp] theorem LimiterRun.after_limit (calls : List LimiterCall) :
    (after limit windowMs calls).limiter.limit = limit := by
  induction calls using List.reverseRecOn with
  | nil => rfl
  | append_singleton calls c ih =>
      rw [after_append]
      cases c with
      | consume key now => exact (WsRateLimiter.consume_limit _ now).trans ih
      | clear key => exact ih

@[simp] theorem LimiterRun.after_windowMs (calls : List LimiterCall) :
    (after limit windowMs calls).limiter.windowMs = windowMs := by
  induction calls using List.reverseRecOn with
  | nil => rfl
  | append_singleton calls c ih =>
      rw [after_append]
      cases c with
      | consume key now => exact (WsRateLimiter.consume_windowMs _ now).trans ih
      | clear key => exact ih

/-- What is kept for a key is what its own calls leave. -/
theorem LimiterRun.hits_after_own (calls : List LimiterCall) :
    (after limit windowMs calls).limiter.hits key =
      (after limit windowMs (calls.filter fun c => c.key = key)).limiter.hits key := by
  induction calls using List.reverseRecOn with
  | nil => rfl
  | append_singleton calls c ih =>
      rw [after_append, List.filter_append]
      by_cases hkey : c.key = key
      · rw [List.filter_cons_of_pos (by simpa using hkey), List.filter_nil, after_append]
        subst hkey
        cases c with
        | consume own now =>
            exact (WsRateLimiter.consume_congr (by simp) (by simp) ih now).2
        | clear own =>
            simp only [call, LimiterCall.key]
            rw [WsRateLimiter.hits_clear_self, WsRateLimiter.hits_clear_self]
      · rw [List.filter_cons_of_neg (by simpa using hkey), List.filter_nil, List.append_nil, ← ih]
        cases c with
        | consume other now => exact WsRateLimiter.hits_consume_of_ne _ now (Ne.symm hkey)
        | clear other => exact WsRateLimiter.hits_clear_of_ne _ (Ne.symm hkey)

end Apart

/-- A call with a key is allowed if and only if fewer than `limit` of the calls that
were allowed since the key was last cleared fall into the window that ends now. Calls
with other keys can be left out, and no key is kept more than `limit` timestamps. -/
theorem consume_allowed_iff_history (limit : Nat) (windowMs : Millis) (calls : List LimiterCall)
    (key : Id) (now : Millis) (hclock : ClockAscends (calls ++ [.consume key now])) :
    (((LimiterRun.after limit windowMs calls).limiter.consume key now).1 = true ↔
        (window windowMs now (acceptedSinceClear key
          (LimiterRun.after limit windowMs calls).history)).length < limit) ∧
      ((LimiterRun.after limit windowMs calls).limiter.consume key now).1 =
        ((LimiterRun.after limit windowMs
          (calls.filter fun c => c.key = key)).limiter.consume key now).1 ∧
      ∀ other, ((LimiterRun.after limit windowMs calls).limiter.hits other).length ≤ limit := by
  have htracks := tracks_after limit windowMs hclock.init (hclock.last_le rfl)
  refine ⟨htracks.allows_iff key, ?_, fun other => ?_⟩
  · apply (WsRateLimiter.consume_congr (by simp) (by simp) _ now).1
    exact LimiterRun.hits_after_own limit windowMs key calls
  · have hbound := htracks.bounded other
    rwa [htracks.limit_eq] at hbound

/-- Of two calls at once the second is rejected and does not count; the window has
passed a full width after the first. -/
theorem consume_allowed_at_width :
    ((LimiterRun.after 1 1000 [.consume "u1" 0, .consume "u2" 0, .consume "u1" 0]).limiter.consume
        "u1" 1000).1 = true ∧
      (window 1000 1000 (acceptedSinceClear "u1" (LimiterRun.after 1 1000
        [.consume "u1" 0, .consume "u2" 0, .consume "u1" 0]).history)).length < 1 := by
  have h := consume_allowed_iff_history 1 1000
    [.consume "u1" 0, .consume "u2" 0, .consume "u1" 0] "u1" 1000 (by decide)
  have hallowed : ((LimiterRun.after 1 1000 [.consume "u1" 0, .consume "u2" 0,
      .consume "u1" 0]).limiter.consume "u1" 1000).1 = true := by decide
  exact ⟨hallowed, h.1.mp hallowed⟩

end Reedr
