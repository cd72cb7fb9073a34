import RootSeeker.Core.Dict
import RootSeeker.Core.TokenBucket
import RootSeeker.Python.Text

/-!
# Rate limits

The rate limiter of the gateway keeps a token bucket for every client.  Times
are in seconds, and the arithmetic is exact.
-/

namespace RootSeeker.Gateway

open Python TokenBucket Bucket

structure RateLimitResult where
  allowed : Bool
  remaining : ℤ
  resetAt : ℚ
  retryAfterSeconds : ℚ

structure RateLimiter where
  requestsPerMinute : ℚ
  burstSize : ℚ
  buckets : Dict PyStr (Bucket ℚ)

/-- One call of `check`, at a time. -/
structure RateCheck where
  clientId : PyStr
  now : ℚ

/-- `int(number)`. -/
def truncate (number : ℚ) : ℤ :=
  number.num.tdiv number.den

namespace RateLimiter

/-- A limiter that no client has called yet. -/
def unused (requestsPerMinute burstSize : ℚ) : RateLimiter where
  requestsPerMinute := requestsPerMinute
  burstSize := burstSize
  buckets := []

def setBucket (limiter : RateLimiter) (clientId : PyStr) (bucket : Bucket ℚ) : RateLimiter :=
  { limiter with buckets := limiter.buckets.set clientId bucket }

def check (limiter : RateLimiter) (clientId : PyStr) (now : ℚ) :
    RateLimitResult × RateLimiter :=
  let bucket := (limiter.buckets.get? clientId).getD ⟨limiter.burstSize, now⟩
  let elapsed := now - bucket.lastUpdate
  let refill := elapsed * (limiter.requestsPerMinute / 60)
  let tokens := min limiter.burstSize (bucket.tokens + refill)
  if 1 ≤ tokens then
    ({ allowed := true
       remaining := truncate (tokens - 1)
       resetAt := now + 60
       retryAfterSeconds := 0 },
      limiter.setBucket clientId ⟨tokens - 1, now⟩)
  else
    let tokensNeeded := 1 - tokens
    let retryAfter := tokensNeeded / (limiter.requestsPerMinute / 60)
    ({ allowed := false
       remaining := 0
       resetAt := now + retryAfter
       retryAfterSeconds := retryAfter },
      limiter.setBucket clientId ⟨tokens, now⟩)

def afterCheck (limiter : RateLimiter) (call : RateCheck) : RateLimiter :=
  (limiter.check call.clientId call.now).2

def resultOf (limiter : RateLimiter) (call : RateCheck) : RateLimitResult :=
  (limiter.check call.clientId call.now).1

/-- The limiter after a sequence of calls. -/
def afterChecks (limiter : RateLimiter) (calls : List RateCheck) : RateLimiter :=
  calls.foldl afterCheck limiter

/-- The calls of a sequence with their results. -/
def checkAll : RateLimiter → List RateCheck → List (RateCheck × RateLimitResult)
  | _, [] => []
  | limiter, call :: calls =>
    (call, limiter.resultOf call) :: checkAll (limiter.afterCheck call) calls

end RateLimiter

/-- The calls of one client that were allowed between two times. -/
def allowedIn (clientId : PyStr) (start stop : ℚ)
    (results : List (RateCheck × RateLimitResult)) : ℕ :=
  results.countP fun entry =>
    entry.1.clientId = clientId ∧ entry.2.allowed ∧ start ≤ entry.1.now ∧ entry.1.now ≤ stop

namespace RateLimiter

/-! ## One call -/

/-- The request that a call makes to the bucket of its client. -/
def requestOf (limiter : RateLimiter) (call : RateCheck) : Bool × Bucket ℚ :=
  request limiter.burstSize (limiter.requestsPerMinute / 60) call.now
    (limiter.buckets.get? call.clientId)

/-- The bucket of the client when the call looks for a token. -/
def filled (limiter : RateLimiter) (call : RateCheck) : Bucket ℚ :=
  ((limiter.buckets.get? call.clientId).getD ⟨limiter.burstSize, call.now⟩).refill
    limiter.burstSize (limiter.requestsPerMinute / 60) call.now

/-- What a call answers and keeps when there is a token. -/
theorem check_of_token (limiter : RateLimiter) {call : RateCheck}
    (htoken : 1 ≤ (limiter.filled call).tokens) :
    (limiter.resultOf call).allowed = true ∧
      limiter.requestOf call = (true, ⟨(limiter.filled call).tokens - 1, call.now⟩) ∧
      limiter.afterCheck call =
        limiter.setBucket call.clientId ⟨(limiter.filled call).tokens - 1, call.now⟩ := by
  have hcheck : limiter.check call.clientId call.now =
      ({ allowed := true
         remaining := truncate ((limiter.filled call).tokens - 1)
         resetAt := call.now + 60
         retryAfterSeconds := 0 },
        limiter.setBucket call.clientId ⟨(limiter.filled call).tokens - 1, call.now⟩) :=
    if_pos htoken
  rw [resultOf, afterCheck, hcheck]
  exact ⟨rfl, if_pos htoken, rfl⟩

/-- And when there is none. -/
theorem check_of_no_token (limiter : RateLimiter) {call : RateCheck}
    (htoken : ¬1 ≤ (limiter.filled call).tokens) :
    (limiter.resultOf call).allowed = false ∧
      (limiter.resultOf call).retryAfterSeconds =
        (1 - (limiter.filled call).tokens) / (limiter.requestsPerMinute / 60) ∧
      limiter.requestOf call = (false, limiter.filled call) ∧
      limiter.afterCheck call = limiter.setBucket call.clientId (limiter.filled call) := by
  let retryAfter := (1 - (limiter.filled call).tokens) / (limiter.requestsPerMinute / 60)
  have hcheck : limiter.check call.clientId call.now =
      ({ allowed := false
         remaining := 0
         resetAt := call.now + retryAfter
         retryAfterSeconds := retryAfter },
        limiter.setBucket call.clientId (limiter.filled call)) :=
    if_neg htoken
  rw [resultOf, afterCheck, hcheck]
  exact ⟨rfl, rfl, if_neg htoken, rfl⟩

/-- A call is one request to the bucket of its client. -/
theorem check_eq (limiter : RateLimiter) (call : RateCheck) :
    (limiter.resultOf call).allowed = (limiter.requestOf call).1 ∧
      limiter.afterCheck call = limiter.setBucket call.clientId (limiter.requestOf call).2 := by
  by_cases htoken : 1 ≤ (limiter.filled call).tokens
  · obtain ⟨hallowed, hrequest, hafter⟩ := limiter.check_of_token htoken
    rw [hallowed, hafter, hrequest]
    exact ⟨rfl, rfl⟩
  · obtain ⟨hallowed, _, hrequest, hafter⟩ := limiter.check_of_no_token htoken
    rw [hallowed, hafter, hrequest]
    exact ⟨rfl, rfl⟩

@[simp]
theorem get?_afterCheck_self (limiter : RateLimiter) (call : RateCheck) :
    (limiter.afterCheck call).buckets.get? call.clientId = some (limiter.requestOf call).2 := by
  rw [(limiter.check_eq call).2]
  exact Dict.get?_set_self _ _ _

/-- A call leaves the buckets of the other clients alone. -/
theorem get?_afterCheck_of_ne (limiter : RateLimiter) {call : RateCheck} {other : PyStr}
    (hother : other ≠ call.clientId) :
    (limiter.afterCheck call).buckets.get? other = limiter.buckets.get? other := by
  rw [(limiter.check_eq call).2]
  exact Dict.get?_set_of_ne _ _ hother

/-- A denied client is told when the missing part of a token will have flowed in. -/
theorem retryAfterSeconds_of_denied (limiter : RateLimiter) (call : RateCheck)
    (hdenied : (limiter.resultOf call).allowed = false) :
    (limiter.resultOf call).retryAfterSeconds =
      (1 - (limiter.requestOf call).2.tokens) / (limiter.requestsPerMinute / 60) := by
  by_cases htoken : 1 ≤ (limiter.filled call).tokens
  · rw [(limiter.check_of_token htoken).1] at hdenied
    exact absurd hdenied (by simp)
  · obtain ⟨_, hretry, hrequest, _⟩ := limiter.check_of_no_token htoken
    rw [hretry, hrequest]

/-! ## Runs -/

/-- The settings of a limiter, and what holds of every bucket at a time. -/
structure Sound (requestsPerMinute burstSize now : ℚ) (limiter : RateLimiter) : Prop where
  rate_eq : limiter.requestsPerMinute = requestsPerMinute
  burst_eq : limiter.burstSize = burstSize
  bounded : ∀ clientId, ∀ bucket ∈ limiter.buckets.get? clientId, bucket.Bounded burstSize
  updated : ∀ clientId, ∀ bucket ∈ limiter.buckets.get? clientId, bucket.lastUpdate ≤ now

/-- The calls are in the order of their times, none before `now`. -/
def InOrder (now : ℚ) (calls : List RateCheck) : Prop :=
  (now :: calls.map RateCheck.now).Pairwise (· ≤ ·)

section Runs

variable {requestsPerMinute burstSize now : ℚ} {limiter : RateLimiter} {call : RateCheck}
  {calls : List RateCheck}

theorem inOrder_cons : InOrder now (call :: calls) ↔ now ≤ call.now ∧ InOrder call.now calls := by
  rw [InOrder, InOrder, List.map_cons, List.pairwise_cons]
  constructor
  · exact fun ⟨hnow, hrest⟩ => ⟨hnow _ List.mem_cons_self, hrest⟩
  · rintro ⟨hnow, hrest⟩
    refine ⟨fun time htime => ?_, hrest⟩
    cases List.mem_cons.mp htime with
    | inl hhead => exact hhead ▸ hnow
    | inr htail => exact hnow.trans (List.rel_of_pairwise_cons hrest htail)

theorem InOrder.of_append {after : List RateCheck} (horder : InOrder now (calls ++ after)) :
    InOrder now calls := by
  rw [InOrder, List.map_append] at horder
  exact horder.sublist ((List.sublist_append_left _ _).cons_cons now)

theorem exists_inOrder (hsorted : calls.Pairwise fun left right => left.now ≤ right.now) :
    ∃ now, InOrder now calls := by
  cases calls with
  | nil => exact ⟨0, List.pairwise_singleton _ _⟩
  | cons call calls => exact ⟨call.now, inOrder_cons.mpr ⟨le_rfl, List.pairwise_map.mpr hsorted⟩⟩

theorem sound_unused (requestsPerMinute burstSize now : ℚ) :
    Sound requestsPerMinute burstSize now (unused requestsPerMinute burstSize) where
  rate_eq := rfl
  burst_eq := rfl
  bounded _ _ hbucket := nomatch hbucket
  updated _ _ hbucket := nomatch hbucket

/-- A call that is not in the past keeps every bucket between empty and full. -/
theorem Sound.afterCheck (hrate : 0 < requestsPerMinute) (hburst : 1 ≤ burstSize)
    (hsound : Sound requestsPerMinute burstSize now limiter) (hnow : now ≤ call.now) :
    Sound requestsPerMinute burstSize call.now (limiter.afterCheck call) := by
  have hrequest : (limiter.requestOf call).2.Bounded burstSize := by
    rw [requestOf, hsound.burst_eq, hsound.rate_eq]
    apply bounded_request (zero_le_one.trans hburst) (by positivity)
    · exact hsound.bounded call.clientId
    · exact fun old hold => (hsound.updated call.clientId old hold).trans hnow
  have hbuckets : ∀ clientId, ∀ bucket ∈ (limiter.afterCheck call).buckets.get? clientId,
      bucket.Bounded burstSize ∧ bucket.lastUpdate ≤ call.now := by
    intro clientId bucket hbucket
    by_cases hclient : clientId = call.clientId
    · rw [hclient, get?_afterCheck_self] at hbucket
      obtain rfl : (limiter.requestOf call).2 = bucket := Option.some.inj hbucket
      exact ⟨hrequest, (request_lastUpdate _).le⟩
    · rw [get?_afterCheck_of_ne limiter hclient] at hbucket
      exact ⟨hsound.bounded clientId bucket hbucket,
        (hsound.updated clientId bucket hbucket).trans hnow⟩
  have hsettings := (limiter.check_eq call).2
  exact {
    rate_eq := by rw [hsettings]; exact hsound.rate_eq
    burst_eq := by rw [hsettings]; exact hsound.burst_eq
    bounded := fun clientId bucket hbucket => (hbuckets clientId bucket hbucket).1
    updated := fun clientId bucket hbucket => (hbuckets clientId bucket hbucket).2 }

theorem Sound.afterChecks (hrate : 0 < requestsPerMinute) (hburst : 1 ≤ burstSize)
    (hsound : Sound requestsPerMinute burstSize now limiter) (horder : InOrder now calls) :
    ∃ last, Sound requestsPerMinute burstSize last (limiter.afterChecks calls) ∧
      ∀ after, InOrder now (calls ++ after) → InOrder last after := by
  induction calls generalizing limiter now with
  | nil => exact ⟨now, hsound, fun _ hafter => hafter⟩
  | cons call calls ih =>
    obtain ⟨hnow, hrest⟩ := inOrder_cons.mp horder
    obtain ⟨last, hlast, hafter⟩ := ih (hsound.afterCheck hrate hburst hnow) hrest
    exact ⟨last, hlast, fun after hall => hafter after (inOrder_cons.mp hall).2⟩

/-- What the bucket of a client still allows pays for all its allowed calls. -/
theorem allowedIn_le_allowance (hrate : 0 < requestsPerMinute) (hburst : 1 ≤ burstSize)
    (clientId : PyStr) {start stop : ℚ} (hwindow : start ≤ stop)
    (hsound : Sound requestsPerMinute burstSize now limiter) (horder : InOrder now calls) :
    (allowedIn clientId start stop (limiter.checkAll calls) : ℚ) ≤
      allowance burstSize (requestsPerMinute / 60) start stop
        (limiter.buckets.get? clientId) := by
  have hcapacity : 0 ≤ burstSize := zero_le_one.trans hburst
  have hflow : 0 ≤ requestsPerMinute / 60 := by positivity
  induction calls generalizing limiter now with
  | nil =>
    rw [checkAll, allowedIn, List.countP_nil, Nat.cast_zero]
    exact allowance_nonneg hcapacity hflow hwindow (hsound.bounded clientId)
  | cons call calls ih =>
    obtain ⟨hnow, hrest⟩ := inOrder_cons.mp horder
    have htail := ih (hsound.afterCheck hrate hburst hnow) hrest
    rw [checkAll, allowedIn, List.countP_cons, Nat.cast_add]
    by_cases hclient : call.clientId = clientId
    · subst hclient
      rw [get?_afterCheck_self] at htail
      have hpaid := cost_add_allowance_le hcapacity hflow hwindow
        (hsound.bounded call.clientId)
        fun old hold => (hsound.updated call.clientId old hold).trans hnow
      rw [requestOf, hsound.burst_eq, hsound.rate_eq] at htail
      refine le_trans ?_ hpaid
      rw [add_comm]
      refine add_le_add (le_of_eq ?_) htail
      rw [cost, (limiter.check_eq call).1, requestOf, hsound.burst_eq, hsound.rate_eq]
      split <;> simp_all
    · rw [get?_afterCheck_of_ne limiter (Ne.symm hclient)] at htail
      have hother : decide (call.clientId = clientId ∧
          (limiter.resultOf call).allowed = true ∧ start ≤ call.now ∧ call.now ≤ stop) =
            false := decide_eq_false fun hcall => hclient hcall.1
      simpa [hother, allowedIn] using htail

/-- Calls of other clients leave the bucket of a client alone. -/
theorem get?_afterChecks_of_other {clientId : PyStr}
    (hothers : ∀ call ∈ calls, call.clientId ≠ clientId) :
    (limiter.afterChecks calls).buckets.get? clientId = limiter.buckets.get? clientId := by
  induction calls generalizing limiter with
  | nil => rfl
  | cons call calls ih =>
    obtain ⟨hcall, hrest⟩ := List.forall_mem_cons.mp hothers
    exact (ih hrest).trans (get?_afterCheck_of_ne limiter hcall.symm)

theorem afterChecks_append (limiter : RateLimiter) (before after : List RateCheck) :
    limiter.afterChecks (before ++ after) = (limiter.afterChecks before).afterChecks after :=
  List.foldl_append ..

/-- A denied client that waits as long as it was told is allowed at its next call. -/
theorem allowed_after_retry (hrate : 0 < requestsPerMinute) (hburst : 1 ≤ burstSize)
    (hsound : Sound requestsPerMinute burstSize now limiter) {between : List RateCheck}
    {next : RateCheck} (horder : InOrder now (call :: between))
    (hclient : next.clientId = call.clientId)
    (hbetween : ∀ other ∈ between, other.clientId ≠ call.clientId)
    (hdenied : (limiter.resultOf call).allowed = false)
    (hwait : call.now + (limiter.resultOf call).retryAfterSeconds ≤ next.now) :
    ((limiter.afterChecks (call :: between)).resultOf next).allowed = true := by
  obtain ⟨last, hlast, _⟩ := hsound.afterChecks hrate hburst horder
  have hbucket : (limiter.afterChecks (call :: between)).buckets.get? next.clientId =
      some (limiter.requestOf call).2 := by
    rw [hclient]
    exact (get?_afterChecks_of_other hbetween).trans (get?_afterCheck_self limiter call)
  rw [(check_eq _ next).1, requestOf, hbucket, hlast.burst_eq, hlast.rate_eq]
  apply granted_of_wait hburst (by positivity)
  rw [requestOf, request_lastUpdate, ← requestOf, ← hsound.rate_eq,
    ← retryAfterSeconds_of_denied limiter call hdenied]
  exact hwait

end Runs

/-- The token bucket of every client stays between empty and full, bounds its
allowed calls in every window of time, belongs to this client alone, and grants
the call of a denied client that waited as long as it was told. -/
theorem token_bucket_bounds (requestsPerMinute burstSize : ℚ)
    (hrate : 0 < requestsPerMinute) (hburst : 1 ≤ burstSize) (calls : List RateCheck)
    (hsorted : calls.Pairwise fun left right => left.now ≤ right.now) :
    let limiter := unused requestsPerMinute burstSize
    (∀ clientId bucket, (limiter.afterChecks calls).buckets.get? clientId = some bucket →
      0 ≤ bucket.tokens ∧ bucket.tokens ≤ burstSize) ∧
    (∀ clientId start stop, start ≤ stop →
      (allowedIn clientId start stop (limiter.checkAll calls) : ℚ) ≤
        burstSize + (stop - start) * requestsPerMinute / 60) ∧
    (∀ before call after, calls = before ++ call :: after →
      ∀ other, other ≠ call.clientId →
        (limiter.afterChecks (before ++ [call])).buckets.get? other =
          (limiter.afterChecks before).buckets.get? other) ∧
    (∀ before call between next after,
      calls = before ++ call :: between ++ next :: after →
      next.clientId = call.clientId →
      (∀ other ∈ between, other.clientId ≠ call.clientId) →
      ((limiter.afterChecks before).resultOf call).allowed = false →
      call.now + ((limiter.afterChecks before).resultOf call).retryAfterSeconds ≤ next.now →
      ((limiter.afterChecks (before ++ call :: between)).resultOf next).allowed = true) := by
  intro limiter
  obtain ⟨now, horder⟩ := exists_inOrder hsorted
  have hunused := sound_unused requestsPerMinute burstSize now
  refine ⟨?_, ?_, ?_, ?_⟩
  · intro clientId bucket hbucket
    obtain ⟨_, hlast, _⟩ := hunused.afterChecks hrate hburst horder
    have hbounded := hlast.bounded clientId bucket hbucket
    exact ⟨hbounded.nonneg, hbounded.le_capacity⟩
  · intro clientId start stop hwindow
    calc (allowedIn clientId start stop (limiter.checkAll calls) : ℚ)
        ≤ allowance burstSize (requestsPerMinute / 60) start stop
            (limiter.buckets.get? clientId) :=
          allowedIn_le_allowance hrate hburst clientId hwindow hunused horder
      _ = burstSize + (stop - start) * requestsPerMinute / 60 :=
          congrArg (burstSize + ·) (mul_div_assoc _ _ _).symm
  · intro before call after _ other hother
    rw [afterChecks_append]
    exact get?_afterCheck_of_ne _ hother
  · intro before call between next after hcalls hclient hbetween hdenied hwait
    rw [hcalls, List.append_assoc] at horder
    obtain ⟨last, hlast, hafter⟩ := hunused.afterChecks hrate hburst horder.of_append
    rw [afterChecks_append]
    exact allowed_after_retry hrate hburst hlast (hafter _ horder).of_append hclient
      hbetween hdenied hwait

/-- A bucket of one token: the second call is denied and told to wait a second,
after which the third one is allowed. -/
theorem third_call_is_allowed :
    (((unused 60 1).afterChecks [⟨py "a", 0⟩, ⟨py "a", 0⟩]).resultOf ⟨py "a", 1⟩).allowed = true :=
  (token_bucket_bounds 60 1 (by norm_num) (by norm_num)
    [⟨py "a", 0⟩, ⟨py "a", 0⟩, ⟨py "a", 1⟩] (by decide +kernel)).2.2.2
    [⟨py "a", 0⟩] ⟨py "a", 0⟩ [] ⟨py "a", 1⟩ [] rfl rfl (by simp) (by decide +kernel)
    (by decide +kernel)

end RateLimiter

end RootSeeker.Gateway
