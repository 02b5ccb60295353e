/-
  Principals and the rate limit: when the requests of one principal have no effect on the answers
  to another.

  They have none as long as the two are counted in different buckets.  The bucket of a request
  depends on its client address as well as on its principal, though: without an address it is
  "unknown", whoever sends it.

  For one direction two runs go side by side, one with the requests of `P` and one without.  Their
  buckets agree outside those of `P`, which is all that the answers to `Q` depend on.  For the other
  direction there is a history in which `P` uses up the limit of a shared bucket: as many of its
  requests as the limit allows, and then one of `Q`, all at one time.
-/
import CommerceOperations.Security.RateLimits

namespace CommerceOperations

namespace SecurityMiddleware

variable [Digests] {settings : SecuritySettings} {request : Request} {now : ClockTime}
  {requests requests' : Buckets} {P Q : String}

/-- The identity of the API key a request presents. -/
def principal (settings : SecuritySettings) (request : Request) : Option String :=
  (authenticate settings request).1

/-- Whether `dispatch` comes to count a request: it is no probe, and it is not turned away for its
    key or its roles. -/
def ReachesLimiter (settings : SecuritySettings) (request : Request) : Prop :=
  request.path ∉ ["/health", "/ready"] ∧
    ((settings.apiAuthEnabled || settings.isProduction) = true →
      principal settings request ≠ none ∧
        authorized request (authenticate settings request).2 = true)

/-- The bucket a request is counted in. -/
def bucketOf (settings : SecuritySettings) (request : Request) : String :=
  bucketKey (principal settings request) request.client

/-! ## One request -/

/-- What is not counted is answered whatever the buckets are, and leaves them as they are. -/
theorem dispatch_uncounted (h : ¬ReachesLimiter settings request) :
    ∃ answer, ∀ requests, dispatch settings request now requests = (answer, requests) := by
  unfold ReachesLimiter principal at h
  unfold dispatch
  by_cases hpath : request.path ∈ ["/health", "/ready"]
  · exact ⟨.passed none [], fun requests => by rw [if_pos hpath]⟩
  · obtain ⟨hauth, hdenied⟩ := Classical.not_imp.mp fun hallowed => h ⟨hpath, hallowed⟩
    by_cases hnone : (authenticate settings request).1 = none
    · refine ⟨.denied 401 "Authentication required" [], fun requests => ?_⟩
      rw [if_neg hpath]
      dsimp only
      rw [if_pos ⟨hauth, hnone⟩]
    · refine ⟨.denied 403 "Insufficient permissions" [], fun requests => ?_⟩
      rw [if_neg hpath]
      dsimp only
      rw [if_neg fun h => hnone h.2, if_pos ⟨hauth, fun hroles => hdenied ⟨hnone, hroles⟩⟩]

/-- What is counted is answered as the bucket of the request decides. -/
theorem dispatch_counted (h : ReachesLimiter settings request) :
    ∃ roles name, ∀ requests, dispatch settings request now requests =
      (if (withinLimit settings (bucketOf settings request) now requests).1 then
        Answer.passed (some name) roles
      else Answer.denied 429 "Rate limit exceeded" [("Retry-After", "1")],
      (withinLimit settings (bucketOf settings request) now requests).2) := by
  obtain ⟨hpath, hallowed⟩ := h
  unfold principal at hallowed
  refine ⟨(authenticate settings request).2,
    if (authenticate settings request).1.getD "" ≠ "" then
      (authenticate settings request).1.getD "" else "anonymous", fun requests => ?_⟩
  unfold dispatch
  rw [if_neg hpath]
  dsimp only
  rw [if_neg fun h => (hallowed h.1).1 h.2, if_neg fun h => h.2 (hallowed h.1).2]
  unfold bucketOf principal
  split
  · rfl
  · rfl

/-- The other buckets are left alone. -/
theorem dispatch_other {key : String}
    (h : ReachesLimiter settings request → bucketOf settings request ≠ key) :
    (dispatch settings request now requests).2 key = requests key := by
  by_cases hreaches : ReachesLimiter settings request
  · obtain ⟨roles, name, hdispatch⟩ := @dispatch_counted _ _ _ now hreaches
    rw [hdispatch]
    exact withinLimit_other (h hreaches).symm
  · obtain ⟨answer, hdispatch⟩ := @dispatch_uncounted _ _ _ now hreaches
    rw [hdispatch]

/-- The answer, and what becomes of the bucket, depend on that bucket alone. -/
theorem dispatch_congr
    (h : ReachesLimiter settings request →
      requests (bucketOf settings request) = requests' (bucketOf settings request)) :
    (dispatch settings request now requests).1 = (dispatch settings request now requests').1 := by
  by_cases hreaches : ReachesLimiter settings request
  · obtain ⟨roles, name, hdispatch⟩ := @dispatch_counted _ _ _ now hreaches
    rw [hdispatch, hdispatch, withinLimit_congr (h hreaches)]
  · obtain ⟨answer, hdispatch⟩ := @dispatch_uncounted _ _ _ now hreaches
    rw [hdispatch, hdispatch]

/-- Buckets that agree still do after the same request. -/
theorem dispatch_bucket_congr {key : String} (h : requests key = requests' key) :
    (dispatch settings request now requests).2 key =
      (dispatch settings request now requests').2 key := by
  by_cases hcounted : ReachesLimiter settings request ∧ bucketOf settings request = key
  · obtain ⟨hreaches, rfl⟩ := hcounted
    obtain ⟨roles, name, hdispatch⟩ := @dispatch_counted _ _ _ now hreaches
    rw [hdispatch, hdispatch]
    exact withinLimit_self_congr h
  · rw [dispatch_other fun hreaches hkey => hcounted ⟨hreaches, hkey⟩,
      dispatch_other fun hreaches hkey => hcounted ⟨hreaches, hkey⟩, h]

/-! ## Histories -/

/-- The requests of a history with their answers. -/
def serve (settings : SecuritySettings) :
    Buckets → List (ClockTime × Request) → List (Request × Answer)
  | _, [] => []
  | requests, (now, request) :: rest =>
    let (answer, requests) := dispatch settings request now requests
    (request, answer) :: serve settings requests rest

/-- The answers to the requests of a principal. -/
def answersTo (settings : SecuritySettings) (Q : String) (served : List (Request × Answer)) :
    List Answer :=
  (served.filter fun answered => principal settings answered.1 = some Q).map (·.2)

/-- A history without the requests of a principal. -/
def without (settings : SecuritySettings) (P : String) (history : List (ClockTime × Request)) :
    List (ClockTime × Request) :=
  history.filter fun call => principal settings call.2 ≠ some P

/-- The requests of `Q` are answered in the same way with the requests of `P` and without them. -/
def Unaffected (settings : SecuritySettings) (P Q : String)
    (history : List (ClockTime × Request)) : Prop :=
  answersTo settings Q (serve settings (fun _ => []) history) =
    answersTo settings Q (serve settings (fun _ => []) (without settings P history))

/-- A request counts if it is one of the principal. -/
theorem answersTo_cons (answered : Request × Answer) (served : List (Request × Answer)) :
    answersTo settings Q (answered :: served) =
      if principal settings answered.1 = some Q then
        answered.2 :: answersTo settings Q served
      else answersTo settings Q served := by
  unfold answersTo
  rw [List.filter_cons]
  by_cases h : principal settings answered.1 = some Q
  · rw [if_pos (by simpa using h), if_pos h, List.map_cons]
  · rw [if_neg (by simpa using h), if_neg h]

/-- A request is left out if it is one of the principal. -/
theorem without_cons (call : ClockTime × Request) (history : List (ClockTime × Request)) :
    without settings P (call :: history) =
      if principal settings call.2 = some P then without settings P history
      else call :: without settings P history := by
  unfold without
  rw [List.filter_cons]
  by_cases h : principal settings call.2 = some P
  · rw [if_neg (by simpa using h), if_pos h]
  · rw [if_pos (by simpa using h), if_neg h]

/-! ## Different buckets -/

/-- No request of `P` among `arriving` is counted in a bucket in which one of `Q` is. -/
def BucketsDiffer (settings : SecuritySettings) (P Q : String) (arriving : Request → Prop) :
    Prop :=
  ∀ request request', arriving request → arriving request' →
    principal settings request = some P → principal settings request' = some Q →
    ReachesLimiter settings request → ReachesLimiter settings request' →
    bucketKey (some P) request.client ≠ bucketKey (some Q) request'.client

/-- The buckets agree outside those in which requests of `P` are counted. -/
def AgreeOutside (settings : SecuritySettings) (P : String) (arriving : Request → Prop)
    (requests requests' : Buckets) : Prop :=
  ∀ key, (∀ request, arriving request → principal settings request = some P →
      ReachesLimiter settings request → bucketOf settings request ≠ key) →
    requests key = requests' key

/-- **The two runs side by side.**  A request of `P` changes the buckets of the first run only,
    where they need not agree; any other request changes the same bucket in both. -/
theorem answersTo_serve_without {arriving : Request → Prop} (hne : P ≠ Q)
    (hdiffer : BucketsDiffer settings P Q arriving) {history : List (ClockTime × Request)}
    (harriving : ∀ call ∈ history, arriving call.2)
    (hagree : AgreeOutside settings P arriving requests requests') :
    answersTo settings Q (serve settings requests history) =
      answersTo settings Q (serve settings requests' (without settings P history)) := by
  induction history generalizing requests requests' with
  | nil => rfl
  | cons call history ih =>
    obtain ⟨hcall, hhistory⟩ := List.forall_mem_cons.mp harriving
    rw [serve, answersTo_cons, without_cons]
    by_cases hP : principal settings call.2 = some P
    · have hQ : principal settings call.2 ≠ some Q := by
        rw [hP]
        exact fun h => hne (Option.some.inj h)
      rw [if_neg hQ, if_pos hP]
      refine ih hhistory fun key hkey => ?_
      rw [dispatch_other (hkey call.2 hcall hP)]
      exact hagree key hkey
    · rw [if_neg hP, serve, answersTo_cons]
      have hrest : answersTo settings Q
            (serve settings (dispatch settings call.2 call.1 requests).2 history) =
          answersTo settings Q (serve settings (dispatch settings call.2 call.1 requests').2
            (without settings P history)) :=
        ih hhistory fun key hkey => dispatch_bucket_congr (hagree key hkey)
      by_cases hQ : principal settings call.2 = some Q
      · have hanswer : (dispatch settings call.2 call.1 requests).1 =
            (dispatch settings call.2 call.1 requests').1 := by
          refine dispatch_congr fun hreaches => hagree _ fun request h hprincipal hcounted => ?_
          have hkeys := hdiffer request call.2 h hcall hprincipal hQ hcounted hreaches
          rw [bucketOf, bucketOf, hprincipal, hQ]
          exact hkeys
        rw [if_pos hQ, if_pos hQ, hanswer, hrest]
      · rw [if_neg hQ, if_neg hQ]
        exact hrest

/-! ## A shared bucket -/

omit [Digests] in
/-- At one time the window lets go of nothing. -/
theorem counted_replicate (settings : SecuritySettings) (n : Nat) :
    counted settings now (List.replicate n now) = List.replicate n now := by
  have hpos := settings.rateLimitWindowSeconds_pos
  have hwindow : now - (settings.rateLimitWindowSeconds : ClockTime) < now :=
    sub_lt_self now (by exact_mod_cast hpos)
  unfold counted SlidingWindow.prune
  rw [List.dropWhile_eq_self_iff]
  intro h
  rw [List.getElem_replicate]
  simp only [decide_eq_true_eq, not_le]
  exact hwindow

/-- As many requests of `P` as the limit allows fill the bucket, and a request of `Q` that is
    counted in it is rejected. -/
theorem answersTo_serve_full (hne : P ≠ Q) {r r' : Request}
    (hP : principal settings r = some P) (hQ : principal settings r' = some Q)
    (hr : ReachesLimiter settings r) (hr' : ReachesLimiter settings r')
    (hkey : bucketOf settings r = bucketOf settings r') {k n : Nat}
    (hbucket : requests (bucketOf settings r') = List.replicate n now)
    (hfull : settings.rateLimitRequests ≤ n + k) :
    answersTo settings Q (serve settings requests (List.replicate k (now, r) ++ [(now, r')])) =
      [.denied 429 "Rate limit exceeded" [("Retry-After", "1")]] := by
  induction k generalizing requests n with
  | zero =>
    obtain ⟨roles, name, hdispatch⟩ := @dispatch_counted _ _ _ now hr'
    have hover : ¬(withinLimit settings (bucketOf settings r') now requests).1 = true := by
      rw [withinLimit_fst, hbucket, counted_replicate, List.length_replicate]
      omega
    rw [List.replicate_zero, List.nil_append, serve, answersTo_cons, if_pos hQ, hdispatch,
      if_neg hover]
    rfl
  | succ k ih =>
    have hother : principal settings r ≠ some Q := by
      rw [hP]
      exact fun h => hne (Option.some.inj h)
    obtain ⟨roles, name, hdispatch⟩ := @dispatch_counted _ _ _ now hr
    have hself := @withinLimit_self settings (bucketOf settings r') now requests
    rw [hbucket, counted_replicate] at hself
    rw [List.replicate_succ, List.cons_append, serve, answersTo_cons, if_neg hother, hdispatch,
      hkey]
    by_cases hroom : (withinLimit settings (bucketOf settings r') now requests).1 = true
    · rw [if_pos hroom, ← List.replicate_succ'] at hself
      exact ih hself (by omega)
    · rw [if_neg hroom] at hself
      have hover : ¬n < settings.rateLimitRequests := by
        rw [withinLimit_fst, hbucket, counted_replicate, List.length_replicate] at hroom
        exact hroom
      exact ih hself (by omega)

/-- Alone, the request of `Q` is admitted. -/
theorem answersTo_serve_alone {r' : Request} (hQ : principal settings r' = some Q)
    (hr' : ReachesLimiter settings r') :
    ∃ roles name, answersTo settings Q (serve settings (fun _ => []) [(now, r')]) =
      [.passed (some name) roles] := by
  obtain ⟨roles, name, hdispatch⟩ := @dispatch_counted _ _ _ now hr'
  have hpos := settings.rateLimitRequests_pos
  have hroom : (withinLimit settings (bucketOf settings r') now fun _ => []).1 = true :=
    withinLimit_fst.mpr hpos
  refine ⟨roles, name, ?_⟩
  rw [serve, answersTo_cons, if_pos hQ, hdispatch, if_pos hroom]
  rfl

/-- Two requests that share a bucket make a history in which `P` throttles `Q`. -/
theorem not_unaffected_of_shared (hne : P ≠ Q) {r r' : Request}
    (hP : principal settings r = some P) (hQ : principal settings r' = some Q)
    (hr : ReachesLimiter settings r) (hr' : ReachesLimiter settings r')
    (hkey : bucketOf settings r = bucketOf settings r') :
    ¬Unaffected settings P Q
      (List.replicate settings.rateLimitRequests (0, r) ++ [(0, r')]) := by
  intro h
  have hrest : without settings P
      (List.replicate settings.rateLimitRequests ((0 : ClockTime), r) ++ [(0, r')]) =
        [(0, r')] := by
    have hQP : principal settings r' ≠ some P := by
      rw [hQ]
      exact fun h => hne (Option.some.inj h).symm
    unfold without
    rw [List.filter_append, List.filter_replicate, if_neg (by simp [hP]), List.nil_append,
      List.filter_singleton, decide_eq_true hQP]
    rfl
  obtain ⟨roles, name, halone⟩ := @answersTo_serve_alone _ _ 0 _ _ hQ hr'
  rw [Unaffected, hrest, halone,
    answersTo_serve_full hne hP hQ hr hr' hkey List.replicate_zero.symm (by omega)] at h
  exact nomatch h

/-- **When one principal does not throttle another.**  In every history of arriving requests the
    requests of `P` have no effect on the answers to `Q` exactly if no two requests of them, that
    are counted, are counted in the same bucket. -/
theorem unaffected_iff (settings : SecuritySettings) (P Q : String) (hne : P ≠ Q)
    (arriving : Request → Prop) :
    (∀ history : List (ClockTime × Request), (∀ call ∈ history, arriving call.2) →
        history.Pairwise (fun call later => call.1 ≤ later.1) →
        Unaffected settings P Q history) ↔
      BucketsDiffer settings P Q arriving := by
  constructor
  · intro h r r' harr harr' hP hQ hr hr' hkey
    refine not_unaffected_of_shared hne hP hQ hr hr' ?_ (h _ ?_ ?_)
    · rw [bucketOf, bucketOf, hP, hQ]
      exact hkey
    · intro call hcall
      rcases List.mem_append.mp hcall with hcall | hcall
      · rw [List.eq_of_mem_replicate hcall]
        exact harr
      · rw [List.mem_singleton.mp hcall]
        exact harr'
    · refine List.pairwise_append.mpr
        ⟨List.pairwise_replicate.mpr (Or.inr le_rfl), List.pairwise_singleton _ _, ?_⟩
      intro call hcall later hlater
      rw [List.eq_of_mem_replicate hcall, List.mem_singleton.mp hlater]
  · intro hdiffer history harriving _
    exact answersTo_serve_without hne hdiffer harriving fun _ _ => rfl

omit [Digests] in
/-- With a name and a client address the bucket is that of the name. -/
theorem bucketKey_named {identity host : String} (h : identity ≠ "") :
    bucketKey (some identity) (some host) = identity := if_pos h

end SecurityMiddleware

/-- A request to read, with a key. -/
def sampleRequest (presented : String) (client : Option String) : Request :=
  { path := "/api/v1/orders", method := "GET", presented, client }

namespace SecurityMiddleware

/-- Where all client addresses are known alice does not throttle bob. -/
theorem unaffected_sample :
    @Unaffected Digests.plain sampleSecurity "alice" "bob"
      [(0, sampleRequest "key of alice" (some "10.0.0.1")),
        (1, sampleRequest "key of bob" (some "10.0.0.1"))] := by
  refine (@unaffected_iff Digests.plain sampleSecurity "alice" "bob" (by decide)
    fun request => request.client.isSome).mpr ?_ _ (by decide) (by decide)
  rintro ⟨_, _, _, client⟩ ⟨_, _, _, client'⟩ h h' - - - -
  obtain ⟨host, rfl⟩ := Option.isSome_iff_exists.mp h
  obtain ⟨host', rfl⟩ := Option.isSome_iff_exists.mp h'
  rw [bucketKey_named (by decide), bucketKey_named (by decide)]
  decide

/-- **Clients without an address throttle each other.**  Alice and bob send one request each and may
    send one each; both are counted as requests of "unknown", and bob's is rejected. -/
theorem throttled_without_address :
    ¬@Unaffected Digests.plain sampleSecurity "alice" "bob"
      [(0, sampleRequest "key of alice" none), (1, sampleRequest "key of bob" none)] := by
  unfold Unaffected
  decide +kernel

end SecurityMiddleware

end CommerceOperations
