import Mathlib.Tactic.Common
import Mathlib.Logic.Function.Basic
import Reedr.Library.SlidingWindow
import Reedr.Schema

/-!
# Sliding-window rate limiter
-/

namespace Reedr
open SlidingWindow

/-- `hits` holds the accepted timestamps of each key; an absent key has none. -/
structure WsRateLimiter where
  limit : Nat
  windowMs : Millis
  hits : Id → List Millis := fun _ => []

namespace WsRateLimiter

/-- Whether a call at `now` is allowed, and the limiter after it. A timestamp is
in the window when it is strictly after `now - windowMs`. -/
def consume (l : WsRateLimiter) (key : Id) (now : Millis) : Bool × WsRateLimiter :=
  let timestamps := (l.hits key).filter fun t => now < t + l.windowMs
  if l.limit ≤ timestamps.length then
    (false, { l with hits := Function.update l.hits key timestamps })
  else
    (true, { l with hits := Function.update l.hits key (timestamps ++ [now]) })

/-- Drop the tracked state of a key. -/
def clear (l : WsRateLimiter) (key : Id) : WsRateLimiter :=
  { l with hits := Function.update l.hits key [] }

section Hits
variable (l : WsRateLimiter) {key other : Id} (now : Millis)

/-- A call that is allowed is kept with what still counts. -/
theorem consume_of_lt (h : (counting l.windowMs now (l.hits key)).length < l.limit) :
    l.consume key now = (true, { l with
      hits := Function.update l.hits key (counting l.windowMs now (l.hits key) ++ [now]) }) :=
  if_neg (Nat.not_le.mpr h)

theorem consume_of_le (h : l.limit ≤ (counting l.windowMs now (l.hits key)).length) :
    l.consume key now = (false, { l with
      hits := Function.update l.hits key (counting l.windowMs now (l.hits key)) }) :=
  if_pos h

theorem consume_allows_iff :
    (l.consume key now).1 = true ↔ (counting l.windowMs now (l.hits key)).length < l.limit := by
  constructor
  · intro hallowed
    by_contra hfull
    rw [consume_of_le l now (Nat.not_lt.mp hfull)] at hallowed
    cases hallowed
  · intro hfree
    rw [consume_of_lt l now hfree]

@[simp] theorem consume_limit : (l.consume key now).2.limit = l.limit := by
  rcases Nat.lt_or_ge (counting l.windowMs now (l.hits key)).length l.limit with h | h
  · rw [consume_of_lt l now h]
  · rw [consume_of_le l now h]

@[simp] theorem consume_windowMs : (l.consume key now).2.windowMs = l.windowMs := by
  rcases Nat.lt_or_ge (counting l.windowMs now (l.hits key)).length l.limit with h | h
  · rw [consume_of_lt l now h]
  · rw [consume_of_le l now h]

/-- The key keeps what still counts, and the call itself if it is allowed. -/
theorem hits_consume_self : (l.consume key now).2.hits key =
    counting l.windowMs now (l.hits key) ++ if (l.consume key now).1 then [now] else [] := by
  rcases Nat.lt_or_ge (counting l.windowMs now (l.hits key)).length l.limit with h | h
  · simp [consume_of_lt l now h]
  · simp [consume_of_le l now h]

theorem hits_consume_of_ne (hne : other ≠ key) :
    (l.consume key now).2.hits other = l.hits other := by
  rcases Nat.lt_or_ge (counting l.windowMs now (l.hits key)).length l.limit with h | h
  · simp [consume_of_lt l now h, hne]
  · simp [consume_of_le l now h, hne]

/-- No key is kept more timestamps than the limit allows. -/
theorem hits_consume_length (h : ∀ key, (l.hits key).length ≤ l.limit) :
    ((l.consume key now).2.hits other).length ≤ l.limit := by
  by_cases hne : other = key
  · subst hne
    have hkept : (counting l.windowMs now (l.hits other)).length ≤ (l.hits other).length :=
      List.length_filter_le ..
    have hbound : (l.hits other).length ≤ l.limit := h other
    rw [hits_consume_self, List.length_append]
    split
    · next hallowed =>
        have hfree := (consume_allows_iff l now).mp hallowed
        simp only [List.length_singleton]
        omega
    · simp only [List.length_nil]
      omega
  · rw [hits_consume_of_ne l now hne]
    exact h other

/-- What a call does to a key depends on what is kept for this key alone. -/
theorem consume_congr {l l' : WsRateLimiter} (hlimit : l.limit = l'.limit)
    (hwindow : l.windowMs = l'.windowMs) (hhits : l.hits key = l'.hits key) (now : Millis) :
    (l.consume key now).1 = (l'.consume key now).1 ∧
      (l.consume key now).2.hits key = (l'.consume key now).2.hits key := by
  have hanswer : (l.consume key now).1 = (l'.consume key now).1 := by
    rw [Bool.eq_iff_iff, consume_allows_iff, consume_allows_iff, hlimit, hwindow, hhits]
  rw [hits_consume_self, hits_consume_self, hanswer, hwindow, hhits]
  exact ⟨rfl, rfl⟩

theorem hits_clear_self : (l.clear key).hits key = [] := by
  simp [clear]

theorem hits_clear_of_ne (h : other ≠ key) : (l.clear key).hits other = l.hits other := by
  simp [clear, h]

end Hits

/-- What is kept for a key counts like all the calls with it that were allowed. -/
def Accounts (l : WsRateLimiter) (key : Id) (allowed : List Millis) (now : Millis) : Prop :=
  counting l.windowMs now (l.hits key) = counting l.windowMs now allowed

namespace Accounts
variable {l : WsRateLimiter} {key : Id} {allowed : List Millis} {now later : Millis}

theorem mono (h : l.Accounts key allowed now) (hlater : now ≤ later) :
    l.Accounts key allowed later :=
  counting_eq_later hlater h

/-- A call is allowed while fewer than the limit of those before it count. -/
theorem allows_iff (h : l.Accounts key allowed now) :
    (l.consume key now).1 = true ↔ (counting l.windowMs now allowed).length < l.limit := by
  rw [consume_allows_iff, h]

theorem consume (h : l.Accounts key allowed now) : (l.consume key now).2.Accounts key
    (allowed ++ if (l.consume key now).1 then [now] else []) now := by
  unfold Accounts
  rw [hits_consume_self, consume_windowMs, counting_append, counting_append,
    counting_counting (Nat.le_refl now), h]

theorem consume_of_ne {other : Id} (h : l.Accounts key allowed now) (hne : key ≠ other) :
    (l.consume other now).2.Accounts key allowed now := by
  unfold Accounts at h ⊢
  rw [consume_windowMs, hits_consume_of_ne l now hne]
  exact h

theorem clear_of_ne {other : Id} (h : l.Accounts key allowed now) (hne : key ≠ other) :
    (l.clear other).Accounts key allowed now := by
  unfold Accounts at h ⊢
  rw [hits_clear_of_ne l hne]
  exact h

/-- A key that has been forgotten accounts for nothing. -/
theorem cleared (l : WsRateLimiter) (key : Id) (now : Millis) :
    (l.clear key).Accounts key [] now := by
  unfold Accounts
  rw [hits_clear_self]

/-- A key that is forgotten while nothing counts loses nothing. -/
theorem clear (h : l.Accounts key allowed now)
    (hquiet : counting l.windowMs now (l.hits key) = []) :
    (l.clear key).Accounts key allowed now := by
  unfold Accounts at h ⊢
  rw [hits_clear_self]
  exact hquiet.symm.trans h

end Accounts

end WsRateLimiter

end Reedr
