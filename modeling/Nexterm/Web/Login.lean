/-
  The login of the web terminal (`handlers/login.rs`, `rate_limit.rs`, `middleware.rs`): attempts
  are counted per key, the key is taken from the headers of the request.

  * `clientIp`: the key; `RateLimiter`: the counter; `handleLogin`: the handler.
  * `Bounded`: in a window without a successful login only so many requests get to the check of
    the code.
  * `Agreed`: the counter decides as if there was one key; `login_bounded`: this is enough.
    `agreed_of_one_key`: with headers that name one key it always does so.

  The access log, which nothing reads, is left out.
-/
import Nexterm.Lib.Maps
import Nexterm.Web.Otp

namespace Nexterm.Web

/-! ## Keys -/

/-- The headers that are looked at: their first values, where these are visible ASCII. -/
structure HeaderMap where
  xForwardedFor : Option String
  xRealIp : Option String

/-- Extract the client IP from request headers. -/
def clientIp (headers : HeaderMap) : String :=
  match headers.xForwardedFor with
  -- the header has the form "IP1, IP2, ..."; use the first entry
  | some v => Vt.trim (String.ofList (v.toList.takeWhile (· ≠ ',')))
  | none => headers.xRealIp.getD "unknown"

/-! ## The counter -/

/-- Rate-limit configuration; times are nanoseconds of a monotonic clock. -/
structure RateLimitConfig where
  window : ℕ
  maxAttempts : ℕ

/-- Default configuration for TOTP login (5 attempts / 60 seconds). -/
def RateLimitConfig.totpDefault : RateLimitConfig := ⟨60000000000, 5⟩

/-- key -> list of attempt timestamps. -/
abbrev RateLimiter := Std.ExtTreeMap String (List ℕ) compare

namespace RateLimiter

variable (config : RateLimitConfig)

/-- The attempts inside the window. -/
def fresh (now : ℕ) (attempts : List ℕ) : List ℕ := attempts.filter (now - · < config.window)

/-- Record an attempt and return whether to allow or reject it. -/
def checkAndRecord (l : RateLimiter) (key : String) (now : ℕ) : Bool × RateLimiter :=
  let entry := fresh config now (l.getD key [])
  if entry.length ≥ config.maxAttempts then (false, l.insert key entry)
  else
    let l := l.insert key (entry ++ [now])
    -- purge empty entries to keep the overall size bounded
    (true, if l.size > 1024 then l.filter fun _ v => !v.isEmpty else l)

/-- Reset the record on success. -/
def reset (l : RateLimiter) (key : String) : RateLimiter := l.erase key

end RateLimiter

/-! ## The handler -/

/-- A login: its headers, the code, the time on the monotonic clock and on the wall clock. -/
structure LoginRequest where
  headers : HeaderMap
  code : String
  now : ℕ
  clock : ℤ

def LoginRequest.key (r : LoginRequest) : String := clientIp r.headers

/-- The answers to a login. -/
inductive LoginResponse
  | rateLimited
  | notConfigured
  | invalidCode
  | loggedIn
  deriving DecidableEq

/-- The request got to the check of its code. -/
def LoginResponse.verified : LoginResponse → Bool
  | invalidCode | loggedIn => true
  | rateLimited | notConfigured => false

/-- The counter, and the used codes if a secret is configured. -/
structure LoginState where
  limiter : RateLimiter
  totp : Option (Finset (ℕ × String))

/-- Verify a TOTP code and issue a session (which never fails: it evicts the oldest one). -/
def handleLogin (generate : ℕ → String) (config : RateLimitConfig) (s : LoginState)
    (r : LoginRequest) : LoginResponse × LoginState :=
  match s.limiter.checkAndRecord config r.key r.now with
  | (false, limiter) => (.rateLimited, { s with limiter })
  | (true, limiter) =>
    match s.totp with
    | none => (.notConfigured, { s with limiter })
    | some used =>
      match TotpManager.verify generate used ⟨r.code, r.clock⟩ with
      | (false, used) => (.invalidCode, ⟨limiter, some used⟩)
      | (true, used) => (.loggedIn, ⟨limiter.reset r.key, some used⟩)

/-- The answers to some logins, with their times. -/
def logins (generate : ℕ → String) (config : RateLimitConfig) (s : LoginState) :
    List LoginRequest → List (ℕ × LoginResponse)
  | [] => []
  | r :: rs =>
    let (response, s') := handleLogin generate config s r
    (r.now, response) :: logins generate config s' rs

/-- The time is in the window that begins at `start`. -/
def RateLimitConfig.Covers (config : RateLimitConfig) (start now : ℕ) : Prop :=
  start ≤ now ∧ now < start + config.window

instance (config : RateLimitConfig) (start now : ℕ) : Decidable (config.Covers start now) :=
  inferInstanceAs (Decidable (_ ∧ _))

/-- How many requests get to the check of their code in a window. -/
def verifications (config : RateLimitConfig) (start : ℕ) (log : List (ℕ × LoginResponse)) : ℕ :=
  log.countP fun e => config.Covers start e.1 ∧ e.2.verified

/-- In every window without a successful login the checks are bounded. -/
def Bounded (config : RateLimitConfig) (log : List (ℕ × LoginResponse)) : Prop :=
  ∀ start, (∀ e ∈ log, config.Covers start e.1 → e.2 ≠ .loggedIn) →
    verifications config start log ≤ config.maxAttempts

namespace RateLimiter

/-- The attempts since some time, over all keys. -/
def since (start : ℕ) (l : RateLimiter) : ℕ := l.sumValues fun v => v.countP (start ≤ ·)

/-- The attempts inside the window, over all keys. -/
def unexpired (config : RateLimitConfig) (now : ℕ) (l : RateLimiter) : ℕ :=
  l.sumValues fun v => (fresh config now v).length

end RateLimiter

/-- The counter decides on the key as it would on all keys together. -/
def Agreed (config : RateLimitConfig) (s : LoginState) (r : LoginRequest) : Prop :=
  (RateLimiter.fresh config r.now (s.limiter.getD r.key [])).length < config.maxAttempts →
    s.limiter.unexpired config r.now < config.maxAttempts

/-- Each login meets the condition in the state it finds. -/
def AllAgreed (generate : ℕ → String) (config : RateLimitConfig) (s : LoginState) :
    List LoginRequest → Prop
  | [] => True
  | r :: rs => Agreed config s r ∧ AllAgreed generate config (handleLogin generate config s r).2 rs

/-! ## The bound -/

namespace RateLimiter

variable {config : RateLimitConfig} {start now : ℕ}

/-- Attempts since the beginning of a window are not dropped in it. -/
theorem countP_fresh (h : config.Covers start now) (v : List ℕ) :
    (fresh config now v).countP (start ≤ ·) = v.countP (start ≤ ·) := by
  rw [fresh, List.countP_filter]
  refine List.countP_congr fun t _ => ?_
  obtain ⟨hle, hlt⟩ := h
  simp only [Bool.and_eq_true, decide_eq_true_eq]
  omega

theorem since_le_unexpired (h : config.Covers start now) (l : RateLimiter) :
    l.since start ≤ l.unexpired config now := by
  refine Std.ExtTreeMap.sumValues_le fun v => ?_
  rw [← countP_fresh h]
  exact List.countP_le_length

/-- A call inside a window: whether it is allowed, and the attempts since the window began. -/
theorem checkAndRecord_spec (h : config.Covers start now) (l : RateLimiter) (key : String) :
    (l.checkAndRecord config key now).1 =
        decide ((fresh config now (l.getD key [])).length < config.maxAttempts) ∧
      (l.checkAndRecord config key now).2.since start =
        l.since start + if (l.checkAndRecord config key now).1 then 1 else 0 := by
  have hsplit : ∀ v, since start (l.insert key v) =
      v.countP (start ≤ ·) + since start (l.erase key) := fun v =>
    Std.ExtTreeMap.sumValues_replace _ v
  have hold : since start l =
      (l.getD key []).countP (start ≤ ·) + since start (l.erase key) :=
    Std.ExtTreeMap.sumValues_getD _ key rfl
  have hnew : since start (l.insert key (fresh config now (l.getD key []) ++ [now])) =
      since start l + 1 := by
    rw [hsplit, hold, List.countP_append, countP_fresh h, List.countP_singleton,
      if_pos (decide_eq_true h.1)]
    omega
  unfold checkAndRecord
  dsimp only
  by_cases hmax : (fresh config now (l.getD key [])).length ≥ config.maxAttempts
  · rw [if_pos hmax]
    refine ⟨(decide_eq_false (by omega)).symm, ?_⟩
    rw [hsplit, hold, countP_fresh h]
    rfl
  · rw [if_neg hmax]
    refine ⟨(decide_eq_true (by omega)).symm, ?_⟩
    dsimp only
    rw [if_pos rfl, ← hnew]
    split_ifs
    · refine Std.ExtTreeMap.sumValues_filter fun _ v hv => ?_
      rw [show v = [] by simpa using hv]
      rfl
    · rfl

end RateLimiter

variable {generate : ℕ → String} {config : RateLimitConfig} {start : ℕ}

/-- A login inside a window: if its code is checked, it is allowed, and it is one attempt more
    unless it succeeds. -/
theorem handleLogin_spec (s : LoginState) {r : LoginRequest} (h : config.Covers start r.now) :
    let result := handleLogin generate config s r
    (result.1.verified = true →
        (RateLimiter.fresh config r.now (s.limiter.getD r.key [])).length < config.maxAttempts) ∧
      (result.1 ≠ .loggedIn → RateLimiter.since start s.limiter +
        (if result.1.verified then 1 else 0) ≤ RateLimiter.since start result.2.limiter) := by
  obtain ⟨hallowed, hsince⟩ := RateLimiter.checkAndRecord_spec h s.limiter r.key
  unfold handleLogin
  cases hcheck : s.limiter.checkAndRecord config r.key r.now with
  | mk allowed limiter =>
    rw [hcheck] at hallowed hsince
    cases allowed with
    | false => exact ⟨fun h => (Bool.noConfusion h), fun _ => hsince.ge⟩
    | true =>
      have hlt := of_decide_eq_true hallowed.symm
      cases s.totp with
      | none => exact ⟨fun h => (Bool.noConfusion h), fun _ => hsince.ge.trans' (Nat.le_succ _)⟩
      | some used =>
        dsimp only
        rcases TotpManager.verify generate used ⟨r.code, r.clock⟩ with ⟨_ | _, used'⟩
        · exact ⟨fun _ => hlt, fun _ => hsince.ge⟩
        · exact ⟨fun _ => hlt, fun h => absurd rfl h⟩

theorem verifications_cons (config : RateLimitConfig) (start : ℕ) (e : ℕ × LoginResponse)
    (log : List (ℕ × LoginResponse)) : verifications config start (e :: log) =
      verifications config start log + if config.Covers start e.1 ∧ e.2.verified then 1 else 0 := by
  rw [verifications, List.countP_cons]
  simp [verifications]

/-- The times of the answers are those of the logins. -/
theorem mem_logins {s : LoginState} {rs : List LoginRequest} {e : ℕ × LoginResponse}
    (he : e ∈ logins generate config s rs) : ∃ r ∈ rs, e.1 = r.now := by
  induction rs generalizing s with
  | nil => simp [logins] at he
  | cons r rs ih =>
    rcases List.mem_cons.1 he with rfl | he
    · exact ⟨r, List.mem_cons_self, rfl⟩
    · obtain ⟨r', hr', heq⟩ := ih he
      exact ⟨r', List.mem_cons_of_mem _ hr', heq⟩

/-- Once the window has begun: the checks so far are among the recorded attempts. -/
theorem verifications_le {s : LoginState} {rs : List LoginRequest}
    (hsorted : rs.Pairwise fun a b => a.now ≤ b.now) (hagreed : AllAgreed generate config s rs)
    (hbegun : ∀ r ∈ rs, start ≤ r.now)
    (hfailed : ∀ e ∈ logins generate config s rs, config.Covers start e.1 → e.2 ≠ .loggedIn)
    {n : ℕ} (hn : n ≤ config.maxAttempts) (hsince : n ≤ RateLimiter.since start s.limiter) :
    n + verifications config start (logins generate config s rs) ≤ config.maxAttempts := by
  induction rs generalizing s n with
  | nil => exact hn
  | cons r rs ih =>
    obtain ⟨hlater, hsorted⟩ := List.pairwise_cons.1 hsorted
    obtain ⟨hr, hagreed⟩ := hagreed
    obtain ⟨hstart, hbegun⟩ := List.forall_mem_cons.1 hbegun
    obtain ⟨hfail, hfailed⟩ := List.forall_mem_cons.1 hfailed
    rw [logins, verifications_cons]
    by_cases hcovers : config.Covers start r.now
    · obtain ⟨hallowed, hcount⟩ := @handleLogin_spec generate config start s r hcovers
      have hcount := hcount (hfail hcovers)
      by_cases hverified : (handleLogin generate config s r).1.verified = true
      · rw [if_pos ⟨hcovers, hverified⟩]
        rw [if_pos hverified] at hcount
        have hlt := hr (hallowed hverified)
        have hle := RateLimiter.since_le_unexpired hcovers s.limiter
        have := ih hsorted hagreed hbegun hfailed (n := n + 1) (by omega) (by omega)
        omega
      · rw [if_neg fun h => hverified h.2]
        rw [if_neg hverified] at hcount
        exact ih hsorted hagreed hbegun hfailed hn (by omega)
    · -- the window is over
      have hover : ∀ e ∈ logins generate config (handleLogin generate config s r).2 rs,
          ¬ config.Covers start e.1 := by
        intro e he hcov
        obtain ⟨r', hr', heq⟩ := mem_logins he
        have := hlater r' hr'
        unfold RateLimitConfig.Covers at hcovers hcov
        omega
      rw [if_neg fun h => hcovers h.1, verifications, List.countP_eq_zero.2]
      · exact hn
      · intro e he
        simp [hover e he]

/-- If the counter always decides as it would on all keys together, the checks of codes are
    bounded in every window without a successful login. -/
theorem login_bounded {s : LoginState} {rs : List LoginRequest}
    (hsorted : rs.Pairwise fun a b => a.now ≤ b.now) (hagreed : AllAgreed generate config s rs) :
    Bounded config (logins generate config s rs) := by
  intro start hfailed
  induction rs generalizing s with
  | nil => exact Nat.zero_le _
  | cons r rs ih =>
    by_cases hstart : start ≤ r.now
    · have hbegun : ∀ r' ∈ r :: rs, start ≤ r'.now := by
        intro r' hr'
        rcases List.mem_cons.1 hr' with rfl | hr'
        · exact hstart
        · exact hstart.trans ((List.pairwise_cons.1 hsorted).1 r' hr')
      have := verifications_le hsorted hagreed hbegun hfailed (Nat.zero_le _) (Nat.zero_le _)
      rwa [Nat.zero_add] at this
    · rw [logins, verifications_cons, if_neg fun h => hstart h.1.1]
      exact ih (List.pairwise_cons.1 hsorted).2 hagreed.2 (List.forall_mem_cons.1 hfailed).2

/-- The only key under which there are attempts. -/
def OneKey (key : String) (l : RateLimiter) : Prop := ∀ k ∈ l, k = key

theorem OneKey.handleLogin {s : LoginState} {r : LoginRequest} (h : OneKey r.key s.limiter) :
    OneKey r.key (Web.handleLogin generate config s r).2.limiter := by
  have hinsert : ∀ v, OneKey r.key (s.limiter.insert r.key v) := by
    intro v k hk
    exact (Std.ExtTreeMap.mem_insert_eq.1 hk).elim Eq.symm (h k)
  have hcheck : OneKey r.key (s.limiter.checkAndRecord config r.key r.now).2 := by
    unfold RateLimiter.checkAndRecord
    dsimp only
    split_ifs
    · exact hinsert _
    · exact fun k hk => hinsert _ k (Std.ExtTreeMap.mem_of_mem_filter hk)
    · exact hinsert _
  unfold Web.handleLogin
  rcases hresult : s.limiter.checkAndRecord config r.key r.now with ⟨_ | _, limiter⟩
  · rw [hresult] at hcheck
    exact hcheck
  · rw [hresult] at hcheck
    cases s.totp with
    | none => exact hcheck
    | some used =>
      dsimp only
      rcases TotpManager.verify generate used ⟨r.code, r.clock⟩ with ⟨_ | _, used'⟩
      · exact hcheck
      · exact fun k hk => hcheck k (Std.ExtTreeMap.mem_erase_eq.1 hk).2

/-- With headers that always name one key, the counter sees all attempts. -/
theorem agreed_of_one_key (key : String) {s : LoginState} {rs : List LoginRequest}
    (hs : OneKey key s.limiter) (hrs : ∀ r ∈ rs, r.key = key) :
    AllAgreed generate config s rs := by
  induction rs generalizing s with
  | nil => trivial
  | cons r rs ih =>
    obtain ⟨hr, hrs⟩ := List.forall_mem_cons.1 hrs
    subst hr
    refine ⟨fun hlt => ?_, ih hs.handleLogin hrs⟩
    have hempty : s.limiter.erase r.key = ∅ := by
      refine Std.ExtTreeMap.ext_getElem? fun k => ?_
      rw [Std.ExtTreeMap.getElem?_erase_eq]
      split_ifs with hk
      · simp
      · rw [Std.ExtTreeMap.not_mem_iff_getElem?.1 fun hmem => hk (hs k hmem).symm]
        simp
    have hall : s.limiter.unexpired config r.now =
        (RateLimiter.fresh config r.now (s.limiter.getD r.key [])).length +
          RateLimiter.unexpired config r.now (s.limiter.erase r.key) :=
      Std.ExtTreeMap.sumValues_getD _ r.key rfl
    rw [hall, hempty]
    exact hlt

/-- Six logins with a wrong code, each from another address by its headers. -/
def spoofed : List LoginRequest :=
  ["1", "2", "3", "4", "5", "6"].map fun addr => ⟨⟨some addr, none⟩, "123456", 0, 0⟩

theorem not_bounded_spoofed :
    ¬ Bounded .totpDefault (logins (fun _ => "000000") .totpDefault ⟨∅, some ∅⟩ spoofed) := by
  intro h
  have hlog : logins (fun _ => "000000") .totpDefault ⟨∅, some ∅⟩ spoofed =
      List.replicate 6 (0, .invalidCode) := by decide +kernel
  rw [hlog] at h
  exact absurd (h 0 (by decide)) (by decide)

theorem login_bounded_six : Bounded .totpDefault
    (logins (fun _ => "000000") .totpDefault ⟨∅, some ∅⟩
      (List.replicate 6 ⟨⟨some "10.0.0.1", none⟩, "123456", 0, 0⟩)) :=
  login_bounded (by decide) (agreed_of_one_key "10.0.0.1" (by simp [OneKey]) (by decide))

end Nexterm.Web
