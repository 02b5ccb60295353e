/-
  Sliding windows over a queue of times.

  A queue holds times in order.  What is older than a window of length `w` is taken off its front,
  and what is left is counted.  As long as times do not decrease this is the same as to count all
  times ever put in that lie in the window `(t - w, t]`: a time that was taken off lies in no
  later window.
-/
import Mathlib.Algebra.Order.Group.Defs
import Mathlib.Algebra.Order.Group.Unbundled.Basic
import Mathlib.Data.List.Basic
import Mathlib.Data.List.TakeWhile

namespace SlidingWindow

variable {T : Type} [AddCommGroup T] [LinearOrder T] [IsOrderedAddMonoid T]

/-- The times in `(t - w, t]`.  This is the specification: what a limit on requests is about. -/
def window (w t : T) (times : List T) : List T := times.filter fun a => t - w < a ∧ a ≤ t

/-- The queue without the times up to `boundary` at its front.  Only the front is looked at, so the
    cost is that of what is taken off. -/
def prune (boundary : T) (queue : List T) : List T := queue.dropWhile fun a => a ≤ boundary

/-- `queue` is what is left of `times`: they are in order, and what was taken off is out of every
    window from `now` on. -/
structure Keeps (w now : T) (times queue : List T) : Prop where
  /-- Times do not decrease. -/
  sorted : times.Pairwise (· ≤ ·)
  /-- None is in the future. -/
  past : ∀ a ∈ times, a ≤ now
  /-- What is not in the queue was taken off its front, and is too old. -/
  split : ∃ dropped, times = dropped ++ queue ∧ ∀ a ∈ dropped, a ≤ now - w

variable {w now now' t : T} {times queue : List T}

omit [IsOrderedAddMonoid T] in
/-- Nothing has been put in yet. -/
theorem Keeps.nil : Keeps w now [] ([] : List T) :=
  ⟨List.Pairwise.nil, fun _ h => absurd h List.not_mem_nil,
    [], rfl, fun _ h => absurd h List.not_mem_nil⟩

/-- Time goes on: what was out of every window stays out. -/
theorem Keeps.later (h : Keeps w now times queue) (hle : now ≤ now') :
    Keeps w now' times queue := by
  obtain ⟨dropped, htimes, hdropped⟩ := h.split
  refine ⟨h.sorted, fun a ha => (h.past a ha).trans hle, dropped, htimes, fun a ha => ?_⟩
  exact (hdropped a ha).trans (sub_le_sub_right hle w)

omit [IsOrderedAddMonoid T] in
/-- The queue is pruned: what is taken off is as old as the window allows to forget. -/
theorem Keeps.pruned (h : Keeps w now times queue) :
    Keeps w now times (prune (now - w) queue) := by
  obtain ⟨dropped, htimes, hdropped⟩ := h.split
  refine ⟨h.sorted, h.past, dropped ++ queue.takeWhile fun a => a ≤ now - w, ?_, ?_⟩
  · rw [List.append_assoc, prune, List.takeWhile_append_dropWhile]
    exact htimes
  · intro a ha
    rcases List.mem_append.mp ha with ha | ha
    · exact hdropped a ha
    · simpa using List.mem_takeWhile_imp ha

omit [IsOrderedAddMonoid T] in
/-- A time is put in.  It is the latest, so the order is kept. -/
theorem Keeps.push (h : Keeps w now times queue) :
    Keeps w now (times ++ [now]) (queue ++ [now]) := by
  obtain ⟨dropped, htimes, hdropped⟩ := h.split
  refine ⟨?_, ?_, dropped, by rw [htimes, List.append_assoc], hdropped⟩
  · refine List.pairwise_append.mpr ⟨h.sorted, List.pairwise_singleton _ _, fun a ha b hb => ?_⟩
    rw [List.mem_singleton.mp hb]
    exact h.past a ha
  · intro a ha
    rcases List.mem_append.mp ha with ha | ha
    · exact h.past a ha
    · rw [List.mem_singleton.mp ha]

omit [AddCommGroup T] [IsOrderedAddMonoid T] in
/-- After pruning nothing old is left: the queue is in order, so its first time decides. -/
theorem lt_of_mem_prune {boundary : T} (hsorted : queue.Pairwise (· ≤ ·)) {a : T}
    (ha : a ∈ prune boundary queue) : boundary < a := by
  induction queue with
  | nil => exact absurd ha List.not_mem_nil
  | cons b queue ih =>
    obtain ⟨hb, hrest⟩ := List.pairwise_cons.mp hsorted
    by_cases hle : b ≤ boundary
    · refine ih hrest ?_
      rw [prune, List.dropWhile_cons, if_pos (by simpa using hle)] at ha
      exact ha
    · rw [prune, List.dropWhile_cons, if_neg (by simpa using hle)] at ha
      rcases List.mem_cons.mp ha with rfl | ha
      · exact not_le.mp hle
      · exact (not_le.mp hle).trans_le (hb a ha)

omit [IsOrderedAddMonoid T] in
/-- **The pruned queue is the window.**  What was taken off before is too old by `Keeps`, what is
    taken off now is too old by the test, and what is left is in the window because no time is later
    than `now`. -/
theorem Keeps.window_eq (h : Keeps w now times queue) :
    window w now times = prune (now - w) queue := by
  obtain ⟨dropped, htimes, hdropped⟩ := h.split
  obtain ⟨dropped', htimes', hdropped'⟩ := h.pruned.split
  have hsorted := h.sorted
  rw [htimes] at hsorted
  have hnone : dropped'.filter (fun a => now - w < a ∧ a ≤ now) = [] := by
    rw [List.filter_eq_nil_iff]
    intro a ha
    simp [not_lt.mpr (hdropped' a ha)]
  have hall : (prune (now - w) queue).filter (fun a => now - w < a ∧ a ≤ now) =
      prune (now - w) queue := by
    rw [List.filter_eq_self]
    intro a ha
    have hlt := lt_of_mem_prune (List.pairwise_append.mp hsorted).2.1 ha
    have hle := h.past a (by rw [htimes']; exact List.mem_append_right _ ha)
    simp [hlt, hle]
  rw [window, htimes', List.filter_append, hnone, hall, List.nil_append]

/-- The window at a later time holds nothing more of the past. -/
theorem Keeps.window_length_le (h : Keeps w now times queue) (hle : now ≤ t) :
    (window w t times).length ≤ (prune (now - w) queue).length := by
  rw [← h.window_eq, window, window, ← List.countP_eq_length_filter, ← List.countP_eq_length_filter]
  refine List.countP_mono_left fun a ha hin => ?_
  have hlt : t - w < a ∧ a ≤ t := by simpa using hin
  have hlater : now - w < a := (sub_le_sub_right hle w).trans_lt hlt.1
  simpa using ⟨hlater, h.past a ha⟩

/-- **A time that finds room keeps every window within its bound.**  A window it lies in ends no
    earlier than it, and holds of the past at most what the queue does. -/
theorem Keeps.window_push_le (h : Keeps w now times queue) {n : Nat}
    (hroom : (prune (now - w) queue).length < n) (hle : (window w t times).length ≤ n) :
    (window w t (times ++ [now])).length ≤ n := by
  rw [window, List.filter_append, List.length_append]
  by_cases hin : t - w < now ∧ now ≤ t
  · have hpast := h.window_length_le hin.2
    have hone : ([now].filter fun a => t - w < a ∧ a ≤ t).length ≤ 1 := List.length_filter_le _ _
    rw [window] at hpast
    omega
  · have hnone : [now].filter (fun a => t - w < a ∧ a ≤ t) = [] := by
      rw [List.filter_singleton, decide_eq_false hin]
      rfl
    rw [hnone, List.length_nil]
    exact hle

end SlidingWindow
