/-
  The rate limiter over whole histories of calls.

  What `_within_limit` admits of a key is what a sliding window of the last
  `rate_limit_window_seconds` admits, although each bucket is pruned as it is used.  The invariant
  is `SlidingWindow.Keeps`, one for each key; the induction is on the history, from its end.

  The window that a claim about rates speaks of ends anywhere, while the code only ever looks at the
  window that ends now.  That the one bounds the other is a fact about sliding windows in general
  (`RateLimit.SlidingWindow`); what is proved here is that the buckets are such windows, and that a
  call on one key leaves the windows of the others as they are.
-/
import CommerceOperations.Security.Middleware
import Mathlib.Data.List.Induction

namespace CommerceOperations

namespace SecurityMiddleware

open SlidingWindow (Keeps prune window)

variable {settings : SecuritySettings} {key other : String} {now : ClockTime} {requests : Buckets}

/-! ## One call of the limiter -/

/-- The bucket as `_within_limit` counts it: what has left the window is dropped. -/
def counted (settings : SecuritySettings) (now : ClockTime) (bucket : List ClockTime) :
    List ClockTime :=
  prune (now - settings.rateLimitWindowSeconds) bucket

/-- A request is admitted if what is counted is below the limit. -/
theorem withinLimit_fst :
    (withinLimit settings key now requests).1 = true ↔
      (counted settings now (requests key)).length < settings.rateLimitRequests := by
  unfold withinLimit counted
  dsimp only
  split
  · constructor
    · intro h
      exact nomatch h
    · intro h
      omega
  · constructor
    · intro _
      omega
    · intro _
      rfl

/-- The bucket of the key afterwards: pruned, and with this request if it was admitted. -/
theorem withinLimit_self :
    (withinLimit settings key now requests).2 key =
      if (withinLimit settings key now requests).1 then
        counted settings now (requests key) ++ [now]
      else counted settings now (requests key) := by
  unfold withinLimit counted
  dsimp only
  split
  · exact Function.update_self ..
  · exact Function.update_self ..

/-- The other buckets are left alone. -/
theorem withinLimit_other (hne : other ≠ key) :
    (withinLimit settings key now requests).2 other = requests other := by
  unfold withinLimit
  dsimp only
  split
  · exact Function.update_of_ne hne ..
  · exact Function.update_of_ne hne ..

/-- Whether a request is admitted depends on the bucket of its key alone. -/
theorem withinLimit_congr {requests' : Buckets} (h : requests key = requests' key) :
    (withinLimit settings key now requests).1 = (withinLimit settings key now requests').1 := by
  rw [Bool.eq_iff_iff, withinLimit_fst, withinLimit_fst, h]

/-- What becomes of a bucket depends on that bucket alone. -/
theorem withinLimit_self_congr {requests' : Buckets} (h : requests key = requests' key) :
    (withinLimit settings key now requests).2 key =
      (withinLimit settings key now requests').2 key := by
  rw [withinLimit_self, withinLimit_self, withinLimit_congr h, h]

/-! ## Histories of the limiter -/

/-- What `_within_limit` decided about a request. -/
structure Decision where
  time : ClockTime
  key : String
  admitted : Bool
  deriving DecidableEq

/-- One more call: its decision joins the log. -/
def decideNext (settings : SecuritySettings) (state : List Decision × Buckets)
    (call : ClockTime × String) : List Decision × Buckets :=
  let (admitted, requests) := withinLimit settings call.2 call.1 state.2
  (state.1 ++ [⟨call.1, call.2, admitted⟩], requests)

/-- The decisions on a history of calls, and the buckets after it; all buckets are empty at first.
    -/
def decisions (settings : SecuritySettings) (history : List (ClockTime × String)) :
    List Decision × Buckets :=
  history.foldl (decideNext settings) ([], fun _ => [])

/-- The times of the admitted requests of a key. -/
def admittedTimes (key : String) (log : List Decision) : List ClockTime :=
  (log.filter fun d => d.key = key ∧ d.admitted).map Decision.time

/-- A history is served from its beginning on, so its last call is decided by the state after the
    others. -/
theorem decisions_concat (history : List (ClockTime × String)) (call : ClockTime × String) :
    decisions settings (history ++ [call]) =
      decideNext settings (decisions settings history) call := by
  rw [decisions, List.foldl_concat]
  rfl

/-- What was admitted before and what was admitted after. -/
theorem admittedTimes_append (log log' : List Decision) :
    admittedTimes key (log ++ log') = admittedTimes key log ++ admittedTimes key log' := by
  rw [admittedTimes, List.filter_append, List.map_append]
  rfl

/-- An admitted request counts for its key. -/
theorem admittedTimes_admitted : admittedTimes key [⟨now, key, true⟩] = [now] := by
  simp [admittedTimes]

/-- A rejected one counts for none. -/
theorem admittedTimes_rejected : admittedTimes key [⟨now, other, false⟩] = [] := by
  simp [admittedTimes]

/-- A request of another key does not count. -/
theorem admittedTimes_other {admitted : Bool} (hne : key ≠ other) :
    admittedTimes key [⟨now, other, admitted⟩] = [] := by
  simp [admittedTimes, hne.symm]

/-- The admitted requests of a key in the window that ends at `t`. -/
def admittedWithin (settings : SecuritySettings) (key : String) (t : ClockTime)
    (log : List Decision) : Nat :=
  (window (settings.rateLimitWindowSeconds : ClockTime) t (admittedTimes key log)).length

/-! ## The limiter is a sliding window -/

/-- The log and the buckets up to `now`: each bucket keeps the times of its key, no window holds
    more than the limit, and what was rejected found it reached. -/
structure Limited (settings : SecuritySettings) (now : ClockTime) (log : List Decision)
    (requests : Buckets) : Prop where
  keeps : ∀ key, Keeps (settings.rateLimitWindowSeconds : ClockTime) now (admittedTimes key log)
    (requests key)
  atMost : ∀ key t, admittedWithin settings key t log ≤ settings.rateLimitRequests
  full : ∀ before d after, log = before ++ d :: after → d.admitted = false →
    admittedWithin settings d.key d.time before = settings.rateLimitRequests

/-- Before the first call nothing was admitted and nothing rejected. -/
theorem Limited.start : Limited settings now [] fun _ => [] :=
  ⟨fun _ => Keeps.nil, fun _ _ => Nat.zero_le _, fun before d after h _ => by simp at h⟩

/-- Time goes on: what is kept for a moment is enough for a later one. -/
theorem Limited.later {log : List Decision} {last : ClockTime}
    (h : Limited settings last log requests) (hle : last ≤ now) :
    Limited settings now log requests :=
  ⟨fun key => (h.keeps key).later hle, h.atMost, h.full⟩

/-- What the bucket counts is what was admitted within the window. -/
theorem Limited.counted_length {log : List Decision} (h : Limited settings now log requests) :
    (counted settings now (requests key)).length = admittedWithin settings key now log := by
  rw [admittedWithin, (h.keeps key).window_eq]
  rfl

/-- The rejected requests of a log with one more decision: either it is that one, or it was there
    before, with the same decisions before it. -/
theorem full_concat {log : List Decision} {decision : Decision}
    (hlog : ∀ before d after, log = before ++ d :: after → d.admitted = false →
      admittedWithin settings d.key d.time before = settings.rateLimitRequests)
    (hlast : decision.admitted = false →
      admittedWithin settings decision.key decision.time log = settings.rateLimitRequests)
    (before : List Decision) (d : Decision) (after : List Decision)
    (hsplit : log ++ [decision] = before ++ d :: after) (hrejected : d.admitted = false) :
    admittedWithin settings d.key d.time before = settings.rateLimitRequests := by
  rcases List.eq_nil_or_concat' after with rfl | ⟨after, e, rfl⟩
  · obtain ⟨rfl, hd⟩ := List.append_inj' hsplit rfl
    obtain rfl : decision = d := List.singleton_inj.mp hd
    exact hlast hrejected
  · rw [← List.cons_append, ← List.append_assoc] at hsplit
    exact hlog before d after (List.append_inj' hsplit rfl).1 hrejected

/-- A request that finds room is admitted.  Its window then holds one more than it counted, which
    was below the limit; a window that ends earlier does not see it. -/
theorem Limited.admit {log : List Decision} (h : Limited settings now log requests)
    (hadmitted : (withinLimit settings key now requests).1 = true) :
    Limited settings now (log ++ [⟨now, key, true⟩])
      (withinLimit settings key now requests).2 := by
  have hself := @withinLimit_self settings key now requests
  rw [hadmitted, if_pos rfl] at hself
  have hroom := withinLimit_fst.mp hadmitted
  refine ⟨fun key' => ?_, fun key' t => ?_, full_concat h.full fun hrejected => nomatch hrejected⟩
  · rw [admittedTimes_append]
    by_cases hkey : key' = key
    · subst hkey
      rw [admittedTimes_admitted, hself]
      exact (h.keeps key').pruned.push
    · rw [admittedTimes_other hkey, List.append_nil, withinLimit_other hkey]
      exact h.keeps key'
  · rw [admittedWithin, admittedTimes_append]
    by_cases hkey : key' = key
    · subst hkey
      rw [admittedTimes_admitted]
      exact (h.keeps key').window_push_le hroom (h.atMost key' t)
    · rw [admittedTimes_other hkey, List.append_nil]
      exact h.atMost key' t

/-- A request that finds none is not.  Nothing is added to any window, and what was counted is the
    limit exactly, because it never exceeds it. -/
theorem Limited.reject {log : List Decision} (h : Limited settings now log requests)
    (hrejected : (withinLimit settings key now requests).1 = false) :
    Limited settings now (log ++ [⟨now, key, false⟩])
      (withinLimit settings key now requests).2 := by
  have hself := @withinLimit_self settings key now requests
  rw [hrejected, if_neg (by decide)] at hself
  have hnone : ∀ key', admittedTimes key' (log ++ [⟨now, key, false⟩]) =
      admittedTimes key' log := by
    intro key'
    rw [admittedTimes_append, admittedTimes_rejected, List.append_nil]
  refine ⟨fun key' => ?_, fun key' t => ?_, full_concat h.full fun _ => ?_⟩
  · rw [hnone]
    by_cases hkey : key' = key
    · subst hkey
      rw [hself]
      exact (h.keeps key').pruned
    · rw [withinLimit_other hkey]
      exact h.keeps key'
  · rw [admittedWithin, hnone]
    exact h.atMost key' t
  · -- the bucket is full, and what it counts is never more than the limit
    have hcounted : (counted settings now (requests key)).length =
        admittedWithin settings key now log := h.counted_length
    have hfull : ¬(counted settings now (requests key)).length < settings.rateLimitRequests := by
      intro hroom
      rw [withinLimit_fst.mpr hroom] at hrejected
      exact nomatch hrejected
    have hmost := h.atMost key now
    show admittedWithin settings key now log = settings.rateLimitRequests
    omega

/-- **One call.**  It finds room or it does not. -/
theorem Limited.next {log : List Decision} (h : Limited settings now log requests) (key : String) :
    Limited settings now (decideNext settings (log, requests) (now, key)).1
      (decideNext settings (log, requests) (now, key)).2 := by
  show Limited settings now (log ++ [⟨now, key, (withinLimit settings key now requests).1⟩])
    (withinLimit settings key now requests).2
  cases hadmitted : (withinLimit settings key now requests).1 with
  | true => exact h.admit hadmitted
  | false => exact h.reject hadmitted

/-- **Every history of calls in order.**  By induction on the history from its end, with time going
    on between the calls. -/
theorem limited_decisions {history : List (ClockTime × String)}
    (hordered : history.Pairwise fun call later => call.1 ≤ later.1)
    (hpast : ∀ call ∈ history, call.1 ≤ now) :
    Limited settings now (decisions settings history).1 (decisions settings history).2 := by
  induction history using List.reverseRecOn generalizing now with
  | nil => exact Limited.start
  | append_singleton history call ih =>
    obtain ⟨hhistory, -, hcall⟩ := List.pairwise_append.mp hordered
    have hbefore := ih hhistory fun earlier h => hcall earlier h call (List.mem_singleton_self _)
    rw [decisions_concat]
    refine (hbefore.next call.2).later ?_
    exact hpast call (List.mem_append_right _ (List.mem_singleton_self _))

/-- **The limiter is an exact sliding window.**  Of a key no more than the limit is admitted in any
    window, and a request is rejected only where that many have been admitted. -/
theorem withinLimit_exact_window (settings : SecuritySettings)
    (history : List (ClockTime × String))
    (hordered : history.Pairwise fun call later => call.1 ≤ later.1) :
    (∀ key t, admittedWithin settings key t (decisions settings history).1 ≤
        settings.rateLimitRequests) ∧
      ∀ before d after, (decisions settings history).1 = before ++ d :: after →
        d.admitted = false →
          admittedWithin settings d.key d.time before = settings.rateLimitRequests ∧
          admittedWithin settings d.key d.time (decisions settings history).1 =
            settings.rateLimitRequests := by
  have hlimited : ∃ now, Limited settings now (decisions settings history).1
      (decisions settings history).2 := by
    rcases List.eq_nil_or_concat' history with rfl | ⟨earlier, call, rfl⟩
    · exact ⟨0, Limited.start⟩
    · refine ⟨call.1, limited_decisions hordered fun call' h => ?_⟩
      rcases List.mem_append.mp h with h | h
      · exact (List.pairwise_append.mp hordered).2.2 call' h call (List.mem_singleton_self _)
      · rw [List.mem_singleton.mp h]
  obtain ⟨now, hlimited⟩ := hlimited
  refine ⟨hlimited.atMost, fun before d after hsplit hrejected => ?_⟩
  have hfull := hlimited.full before d after hsplit hrejected
  have hmost := hlimited.atMost d.key d.time
  refine ⟨hfull, ?_⟩
  -- the whole log holds what the log before the request does
  have hmore : admittedWithin settings d.key d.time before ≤
      admittedWithin settings d.key d.time (decisions settings history).1 := by
    rw [hsplit, admittedWithin, admittedWithin, admittedTimes_append, window, window,
      List.filter_append, List.length_append]
    omega
  omega

end SecurityMiddleware

/-- Two principals, who may read, and one request a minute. -/
def sampleSecurity : SecuritySettings where
  apiAuthEnabled := true
  isProduction := false
  apiKeys := [("alice", "key of alice"), ("bob", "key of bob")]
  apiRoles := [("alice", ["viewer"]), ("bob", ["viewer"])]
  rateLimitRequests := 1
  rateLimitWindowSeconds := 60
  rateLimitRequests_pos := by decide
  rateLimitWindowSeconds_pos := by decide

namespace SecurityMiddleware

/-- A window is half-open: the request at 60 does not see the one at 0, the one at 61 sees the one
    at 60. -/
theorem withinLimit_exact_window_sample :
    ((decisions sampleSecurity [(0, "alice"), (0, "bob"), (60, "alice"), (61, "alice")]).1.map
        Decision.admitted) = [true, true, true, false] ∧
      admittedWithin sampleSecurity "alice" 61
        [⟨0, "alice", true⟩, ⟨0, "bob", true⟩, ⟨60, "alice", true⟩] = 1 :=
  ⟨by decide +kernel,
    ((withinLimit_exact_window sampleSecurity
      [(0, "alice"), (0, "bob"), (60, "alice"), (61, "alice")] (by decide)).2
        [⟨0, "alice", true⟩, ⟨0, "bob", true⟩, ⟨60, "alice", true⟩] ⟨61, "alice", false⟩ []
        (by decide +kernel) rfl).1⟩

end SecurityMiddleware

end CommerceOperations
