import Mathlib.Data.List.Basic

/-!
# Sliding windows

Timestamps and the windows of a fixed width they fall into. An entry counts for
a width after it was made; if a new one is made only while fewer than the limit
count, no window ever holds more than the limit.
-/

namespace SlidingWindow
variable {limit width now later : Nat} {times kept : List Nat}

/-- The entries that still count at `now`. -/
def counting (width now : Nat) (times : List Nat) : List Nat :=
  times.filter fun t => now < t + width

/-- The entries in the half-open window `(now - width, now]`. -/
def window (width now : Nat) (times : List Nat) : List Nat :=
  times.filter fun t => now < t + width ∧ t ≤ now

/-- No window of the width holds more than `limit` entries. -/
def Bounded (limit width : Nat) (times : List Nat) : Prop :=
  ∀ start, (times.filter fun t => start ≤ t ∧ t < start + width).length ≤ limit

/-- Of entries made so far, those that count are those in the window. -/
theorem window_eq_counting (hpast : ∀ t ∈ times, t ≤ now) :
    window width now times = counting width now times := by
  apply List.filter_congr
  intro t ht
  simp [hpast t ht]

theorem counting_append (l l' : List Nat) :
    counting width now (l ++ l') = counting width now l ++ counting width now l' :=
  List.filter_append ..

/-- What counts later counts already. -/
theorem counting_counting (h : now ≤ later) :
    counting width later (counting width now times) = counting width later times := by
  unfold counting
  rw [List.filter_filter]
  apply List.filter_congr
  intro t _
  by_cases hlater : later < t + width
  · have hnow : now < t + width := Nat.lt_of_le_of_lt h hlater
    simp [hlater, hnow]
  · simp [hlater]

/-- Lists that count alike go on to do so. -/
theorem counting_eq_later (h : now ≤ later)
    (hsame : counting width now kept = counting width now times) :
    counting width later kept = counting width later times := by
  calc counting width later kept
      _ = counting width later (counting width now kept) := (counting_counting h).symm
      _ = counting width later (counting width now times) := by rw [hsame]
      _ = counting width later times := counting_counting h

theorem bounded_nil : Bounded limit width [] :=
  fun _ => Nat.zero_le _

theorem Bounded.sublist (h : Bounded limit width times) (hsub : kept.Sublist times) :
    Bounded limit width kept :=
  fun start => Nat.le_trans (hsub.filter _).length_le (h start)

/-- An entry made while fewer than the limit count exceeds no window. -/
theorem Bounded.append (h : Bounded limit width times)
    (hfree : (counting width now times).length < limit) : Bounded limit width (times ++ [now]) := by
  intro start
  rw [List.filter_append, List.length_append]
  by_cases hin : start ≤ now ∧ now < start + width
  · -- Whatever else is in the window still counts when the entry is made.
    have hsub : (times.filter fun t => start ≤ t ∧ t < start + width).length ≤
        (counting width now times).length := by
      apply List.Sublist.length_le
      apply List.monotone_filter_right
      intro t ht
      simp only [decide_eq_true_eq] at ht ⊢
      omega
    have hone : ([now].filter fun t => start ≤ t ∧ t < start + width).length ≤ 1 :=
      List.length_filter_le _ _
    omega
  · have hnone : ([now].filter fun t => start ≤ t ∧ t < start + width) = [] := by
      simp [hin]
    have hold := h start
    rw [hnone]
    simpa using hold

end SlidingWindow
