/-
  Web sessions (`web/auth.rs`): tokens with an expiry, and a bound on how many there are.

  * `AuthManager`: the sessions; `createSession`, `isValid`, `revokeSession`.
  * `Event`, `history`: what a run has done to the tokens.
  * `InForce`: what a token is for; it has been issued, its lifetime has not elapsed, and it has
    been neither evicted nor revoked since.
  * `session_store`: after every run, a token is valid exactly if it is in force, there are no more
    sessions than the bound, and a session is evicted only in place of a new one.

  Times are those of a monotonic clock.  The map of the sessions is a list of entries with
  distinct tokens, and the order in which it is iterated is given with each call.
-/
import Mathlib.Data.List.MinMax
import Mathlib.Data.List.Nodup

namespace Nexterm.Web

/-- Session entry. -/
structure SessionEntry where
  /-- Session expiry timestamp. -/
  expiry : ℕ
  /-- Authentication method (e.g. "totp", "oauth:github", "token"). -/
  authMethod : String
  /-- Authenticated user identifier. -/
  userId : String
  deriving DecidableEq

/-- Authentication manager. -/
structure AuthManager where
  /-- token -> session entry -/
  sessions : List (String × SessionEntry)
  /-- Session lifetime. -/
  ttl : ℕ
  /-- Concurrent session limit (0 = unlimited). -/
  maxSessions : ℕ

/-- The order in which the sessions are iterated. -/
structure IterOrder where
  iter : List (String × SessionEntry) → List (String × SessionEntry)
  perm : ∀ sessions, (iter sessions).Perm sessions

/-- What can be asked of the manager; the token of a new session is drawn at random. -/
inductive AuthOp
  | createSession (authMethod userId token : String) (order : IterOrder)
  | revokeSession (token : String)
  | isValid (token : String)

/-- A call and the time at which it is made. -/
structure AuthCall where
  now : ℕ
  op : AuthOp

namespace AuthManager

def new (sessionTimeoutSecs maxSessions : ℕ) : AuthManager := ⟨[], sessionTimeoutSecs, maxSessions⟩

/-- The sessions that have not expired. -/
def live (s : AuthManager) (now : ℕ) : List (String × SessionEntry) :=
  s.sessions.filter fun e => now < e.2.expiry

/-- The session that makes room for a new one: if the limit is reached, one with the earliest
    expiry among those that have not expired. -/
def evictee (s : AuthManager) (now : ℕ) (order : IterOrder) : Option String :=
  if s.maxSessions > 0 ∧ (s.live now).length ≥ s.maxSessions then
    ((order.iter (s.live now)).argmin fun e => e.2.expiry).map Prod.fst
  else none

/-- Issue a new session token: purge expired sessions, make room, insert. -/
def createSession (s : AuthManager) (now : ℕ) (authMethod userId token : String)
    (order : IterOrder) : AuthManager :=
  let sessions := (s.live now).filter fun e => some e.1 ≠ s.evictee now order
  { s with sessions :=
    (token, ⟨now + s.ttl, authMethod, userId⟩) :: sessions.filter fun e => e.1 ≠ token }

/-- Check whether a session token is still valid, against every stored token. -/
def isValid (s : AuthManager) (now : ℕ) (token : String) : Bool :=
  s.sessions.foldl (fun valid e => valid || (e.1 = token && now < e.2.expiry)) false

/-- Explicitly remove a session. -/
def revokeSession (s : AuthManager) (token : String) : AuthManager :=
  { s with sessions := s.sessions.filter fun e => e.1 ≠ token }

def step (s : AuthManager) (call : AuthCall) : AuthManager :=
  match call.op with
  | .createSession authMethod userId token order =>
    s.createSession call.now authMethod userId token order
  | .revokeSession token => s.revokeSession token
  | .isValid _ => s

/-- The manager after a run. -/
def run (s : AuthManager) (calls : List AuthCall) : AuthManager := calls.foldl step s

end AuthManager

/-! ## The history of the tokens -/

/-- What happens to a token. -/
inductive Event
  | issued (token : String) (now : ℕ)
  | evicted (token : String)
  | revoked (token : String)

namespace AuthManager

/-- What a call does to the tokens. -/
def events (s : AuthManager) (call : AuthCall) : List Event :=
  match call.op with
  | .createSession _ _ token order =>
    ((s.evictee call.now order).map Event.evicted).toList ++ [.issued token call.now]
  | .revokeSession token => [.revoked token]
  | .isValid _ => []

/-- What a run does to the tokens. -/
def history : AuthManager → List AuthCall → List Event
  | _, [] => []
  | s, call :: calls => s.events call ++ history (s.step call) calls

end AuthManager

/-- The token was issued at this time and has been neither evicted nor revoked since. -/
def Standing (history : List Event) (token : String) (issuedAt : ℕ) : Prop :=
  ∃ before after, history = before ++ .issued token issuedAt :: after ∧
    .evicted token ∉ after ∧ .revoked token ∉ after

/-- Moreover its lifetime has not elapsed. -/
def InForce (ttl : ℕ) (history : List Event) (token : String) (now : ℕ) : Prop :=
  ∃ issuedAt, Standing history token issuedAt ∧ now < issuedAt + ttl

/-- The token that a call issues. -/
def AuthCall.issues (call : AuthCall) : Option String :=
  match call.op with
  | .createSession _ _ token _ => some token
  | _ => none

/-! ## Standing -/

variable {history : List Event} {token : String} {issuedAt now ttl : ℕ}

/-- A token stands after one more event if it stood before and the event does not end it, or if
    the event issues it. -/
theorem standing_append_iff (history : List Event) (event : Event) :
    Standing (history ++ [event]) token issuedAt ↔
      (Standing history token issuedAt ∧ event ≠ .evicted token ∧ event ≠ .revoked token) ∨
        event = .issued token issuedAt := by
  constructor
  · rintro ⟨before, after, heq, hevicted, hrevoked⟩
    rcases List.eq_nil_or_concat after with rfl | ⟨after, last, rfl⟩
    · obtain ⟨-, hlast⟩ := List.append_inj' heq rfl
      exact .inr (List.singleton_inj.1 hlast)
    · rw [List.concat_eq_append] at heq hevicted hrevoked
      rw [← List.cons_append, ← List.append_assoc] at heq
      obtain ⟨hinit, hlast⟩ := List.append_inj' heq rfl
      obtain rfl := List.singleton_inj.1 hlast
      rw [List.mem_append, not_or, List.mem_singleton] at hevicted hrevoked
      exact .inl ⟨⟨before, after, hinit, hevicted.1, hrevoked.1⟩, Ne.symm hevicted.2,
        Ne.symm hrevoked.2⟩
  · rintro (⟨⟨before, after, rfl, hevicted, hrevoked⟩, hevent, hevent'⟩ | rfl)
    · refine ⟨before, after ++ [event], by simp, ?_, ?_⟩
      · rw [List.mem_append, not_or, List.mem_singleton]
        exact ⟨hevicted, hevent.symm⟩
      · rw [List.mem_append, not_or, List.mem_singleton]
        exact ⟨hrevoked, hevent'.symm⟩
    · exact ⟨history, [], rfl, by simp, by simp⟩

theorem not_standing_nil : ¬Standing [] token issuedAt := by
  rintro ⟨before, after, heq, -⟩
  simp at heq

theorem Standing.mem (h : Standing history token issuedAt) : .issued token issuedAt ∈ history := by
  obtain ⟨before, after, rfl, -⟩ := h
  simp

namespace AuthManager

variable {s : AuthManager} {calls : List AuthCall} {order : IterOrder}

theorem run_append (s : AuthManager) (calls calls' : List AuthCall) :
    s.run (calls ++ calls') = (s.run calls).run calls' := List.foldl_append

theorem history_append (s : AuthManager) (calls : List AuthCall) (call : AuthCall) :
    s.history (calls ++ [call]) = s.history calls ++ (s.run calls).events call := by
  induction calls generalizing s with
  | nil => exact List.append_nil _
  | cons first calls ih =>
    show s.events first ++ (s.step first).history (calls ++ [call]) = _
    rw [ih, ← List.append_assoc]
    rfl

/-- Only a call issues a token. -/
theorem issues_of_mem_history (h : .issued token issuedAt ∈ s.history calls) :
    ∃ call ∈ calls, call.issues = some token := by
  induction calls generalizing s with
  | nil => cases h
  | cons call calls ih =>
    rcases List.mem_append.1 h with h | h
    · refine ⟨call, List.mem_cons_self, ?_⟩
      unfold events at h
      unfold AuthCall.issues
      split at h <;> simp_all
    · obtain ⟨later, hmem, hissues⟩ := ih h
      exact ⟨later, List.mem_cons_of_mem _ hmem, hissues⟩

/-! ## Operations -/

theorem mem_live {e : String × SessionEntry} :
    e ∈ s.live now ↔ e ∈ s.sessions ∧ now < e.2.expiry := by
  rw [live, List.mem_filter, decide_eq_true_iff]

theorem isValid_iff : s.isValid now token = true ↔
    ∃ e ∈ s.sessions, e.1 = token ∧ now < e.2.expiry := by
  have hfold : ∀ (sessions : List (String × SessionEntry)) (valid : Bool),
      sessions.foldl (fun valid e => valid || (e.1 = token && now < e.2.expiry)) valid = true ↔
        valid = true ∨ ∃ e ∈ sessions, e.1 = token ∧ now < e.2.expiry := by
    intro sessions
    induction sessions with
    | nil => simp
    | cons e sessions ih =>
      intro valid
      rw [List.foldl_cons, ih]
      simp [or_assoc]
  rw [isValid, hfold]
  simp

/-- A session is evicted only if the limit is reached, and then it is one that expires first. -/
theorem evictee_cases (s : AuthManager) (hlimit : 0 < s.maxSessions) (now : ℕ)
    (order : IterOrder) :
    (s.evictee now order = none ∧ (s.live now).length < s.maxSessions) ∨
      (s.maxSessions ≤ (s.live now).length ∧ ∃ e ∈ s.live now,
        s.evictee now order = some e.1 ∧ ∀ e' ∈ s.live now, e.2.expiry ≤ e'.2.expiry) := by
  unfold evictee
  split_ifs with hfull
  · refine .inr ⟨hfull.2, ?_⟩
    cases hmin : (order.iter (s.live now)).argmin fun e => e.2.expiry with
    | none =>
      rw [List.argmin_eq_none] at hmin
      have hperm := order.perm (s.live now)
      rw [hmin] at hperm
      have hlength := hperm.length_eq
      rw [List.length_nil] at hlength
      omega
    | some e =>
      refine ⟨e, (order.perm _).mem_iff.1 (List.argmin_mem hmin), rfl, fun e' he' => ?_⟩
      have hmem : e' ∈ order.iter (s.live now) := (order.perm _).mem_iff.2 he'
      exact List.le_of_mem_argmin (f := fun e : String × SessionEntry => e.2.expiry) hmem hmin
  · exact .inl ⟨rfl, by omega⟩

/-! ## The store and the history -/

/-- The sessions are the tokens that stand, less those that had expired by the last call. -/
structure Records (s : AuthManager) (history : List Event) (last : ℕ) : Prop where
  nodup : (s.sessions.map Prod.fst).Nodup
  bounded : s.sessions.length ≤ s.maxSessions
  standing : ∀ e ∈ s.sessions, ∃ issuedAt, Standing history e.1 issuedAt ∧
    e.2.expiry = issuedAt + s.ttl
  recorded : ∀ token issuedAt, Standing history token issuedAt → last < issuedAt + s.ttl →
    ∃ e ∈ s.sessions, e.1 = token ∧ e.2.expiry = issuedAt + s.ttl

variable {last : ℕ}

theorem Records.isValid_iff (h : s.Records history last) (hnow : last ≤ now) :
    s.isValid now token = true ↔ InForce s.ttl history token now := by
  rw [AuthManager.isValid_iff]
  constructor
  · rintro ⟨e, he, rfl, hlive⟩
    obtain ⟨issuedAt, hstanding, hexpiry⟩ := h.standing e he
    exact ⟨issuedAt, hstanding, hexpiry ▸ hlive⟩
  · rintro ⟨issuedAt, hstanding, hlive⟩
    obtain ⟨e, he, rfl, hexpiry⟩ := h.recorded token issuedAt hstanding (by omega)
    exact ⟨e, he, rfl, hexpiry ▸ hlive⟩

theorem Records.mono (h : s.Records history last) (hnow : last ≤ now) : s.Records history now :=
  { h with recorded := fun token issuedAt hstanding hlive =>
      h.recorded token issuedAt hstanding (by omega) }

theorem Records.revokeSession (h : s.Records history last) (token : String) :
    (s.revokeSession token).Records (history ++ [.revoked token]) last := by
  have hmem : ∀ e, e ∈ (s.revokeSession token).sessions ↔ e ∈ s.sessions ∧ e.1 ≠ token := by
    simp [AuthManager.revokeSession]
  refine ⟨?_, ?_, ?_, ?_⟩
  · exact h.nodup.sublist (List.filter_sublist.map _)
  · exact (List.length_filter_le _ _).trans h.bounded
  · intro e he
    obtain ⟨he, hne⟩ := (hmem e).1 he
    obtain ⟨issuedAt, hstanding, hexpiry⟩ := h.standing e he
    refine ⟨issuedAt, (standing_append_iff _ _).2 (.inl ⟨hstanding, nofun, ?_⟩), hexpiry⟩
    exact fun heq => hne (Event.revoked.inj heq).symm
  · intro token' issuedAt hstanding hlive
    obtain ⟨hstanding, -, hne⟩ | heq := (standing_append_iff _ _).1 hstanding
    · obtain ⟨e, he, rfl, hexpiry⟩ := h.recorded token' issuedAt hstanding hlive
      exact ⟨e, (hmem e).2 ⟨he, fun heq => hne (heq ▸ rfl)⟩, rfl, hexpiry⟩
    · cases heq

/-- The sessions after a new one: it and the live ones, less the one that makes room. -/
theorem Records.mem_createSession (h : s.Records history now) (authMethod userId : String)
    (order : IterOrder) (hfresh : ∀ issuedAt, ¬Standing history token issuedAt)
    (e : String × SessionEntry) :
    e ∈ (s.createSession now authMethod userId token order).sessions ↔
      e = (token, ⟨now + s.ttl, authMethod, userId⟩) ∨
        e ∈ s.live now ∧ some e.1 ≠ s.evictee now order := by
  show e ∈ _ :: _ ↔ _
  rw [List.mem_cons, List.mem_filter, List.mem_filter]
  refine or_congr_right ⟨fun hmem => by simpa using hmem.1, fun hmem => ⟨by simpa using hmem, ?_⟩⟩
  obtain ⟨issuedAt, hstanding, -⟩ := h.standing e (mem_live.1 hmem.1).1
  simpa using fun heq : e.1 = token => hfresh issuedAt (heq ▸ hstanding)

theorem standing_create_iff {issuedAt : ℕ} {token' : String} (evicted : Option String) :
    Standing (history ++ ((evicted.map Event.evicted).toList ++ [.issued token now])) token'
        issuedAt ↔
      (Standing history token' issuedAt ∧ some token' ≠ evicted) ∨
        (token = token' ∧ now = issuedAt) := by
  rw [← List.append_assoc, standing_append_iff]
  cases evicted with
  | none =>
    show (Standing (history ++ []) _ _ ∧ _) ∨ _ ↔ _
    rw [List.append_nil]
    simp
  | some k =>
    show (Standing (history ++ [.evicted k]) _ _ ∧ _) ∨ _ ↔ _
    rw [standing_append_iff]
    simp [eq_comm]

theorem Records.createSession (h : s.Records history now) (hlimit : 0 < s.maxSessions)
    (authMethod userId : String) (hfresh : ∀ issuedAt, ¬Standing history token issuedAt)
    (order : IterOrder) :
    (s.createSession now authMethod userId token order).Records
      (history ++ (((s.evictee now order).map Event.evicted).toList ++ [.issued token now]))
        now := by
  have hmem := h.mem_createSession authMethod userId order hfresh
  have hlive : (s.live now).length ≤ s.sessions.length := List.length_filter_le _ _
  have hbounded := h.bounded
  refine ⟨?_, ?_, ?_, ?_⟩
  · refine List.nodup_cons.2 ⟨?_, ?_⟩
    · rintro hmem
      obtain ⟨e, he, heq⟩ := List.mem_map.1 hmem
      exact absurd heq (by simpa using (List.mem_filter.1 he).2)
    · exact h.nodup.sublist
        (((List.filter_sublist.trans List.filter_sublist).trans List.filter_sublist).map _)
  · show ((_ :: _ : List (String × SessionEntry))).length ≤ s.maxSessions
    have hkept := List.length_filter_le (fun e : String × SessionEntry => decide (e.1 ≠ token))
      ((s.live now).filter fun e => some e.1 ≠ s.evictee now order)
    rw [List.length_cons]
    obtain ⟨hnone, hroom⟩ | ⟨-, oldest, holdest, hsome, -⟩ := s.evictee_cases hlimit now order
    · have := List.length_filter_le
        (fun e : String × SessionEntry => decide (some e.1 ≠ s.evictee now order)) (s.live now)
      omega
    · -- one session makes room
      have := (List.length_filter_lt_length_iff_exists
        (p := fun e : String × SessionEntry => decide (some e.1 ≠ s.evictee now order))).2
        ⟨oldest, holdest, by simp [hsome]⟩
      omega
  · intro e he
    obtain rfl | ⟨he, hkept⟩ := (hmem e).1 he
    · exact ⟨now, (standing_create_iff _).2 (.inr ⟨rfl, rfl⟩), rfl⟩
    · obtain ⟨issuedAt, hstanding, hexpiry⟩ := h.standing e (mem_live.1 he).1
      exact ⟨issuedAt, (standing_create_iff _).2 (.inl ⟨hstanding, hkept⟩), hexpiry⟩
  · intro token' issuedAt hstanding hlive
    obtain ⟨hstanding, hkept⟩ | ⟨rfl, rfl⟩ := (standing_create_iff _).1 hstanding
    · obtain ⟨e, he, rfl, hexpiry⟩ := h.recorded token' issuedAt hstanding hlive
      exact ⟨e, (hmem e).2 (.inr ⟨mem_live.2 ⟨he, hexpiry ▸ hlive⟩, hkept⟩), rfl, hexpiry⟩
    · exact ⟨_, (hmem _).2 (.inl rfl), rfl, rfl⟩

/-! ## Runs -/

theorem step_config (s : AuthManager) (call : AuthCall) :
    (s.step call).ttl = s.ttl ∧ (s.step call).maxSessions = s.maxSessions := by
  unfold step
  cases call.op <;> exact ⟨rfl, rfl⟩

theorem run_config (s : AuthManager) (calls : List AuthCall) :
    (s.run calls).ttl = s.ttl ∧ (s.run calls).maxSessions = s.maxSessions := by
  induction calls generalizing s with
  | nil => exact ⟨rfl, rfl⟩
  | cons call calls ih =>
    obtain ⟨httl, hmax⟩ := ih (s.step call)
    obtain ⟨httl', hmax'⟩ := s.step_config call
    exact ⟨httl.trans httl', hmax.trans hmax'⟩

theorem not_standing_of_fresh (call : AuthCall)
    (hfresh : ((calls ++ [call]).filterMap AuthCall.issues).Nodup)
    (htoken : call.issues = some token) (issuedAt : ℕ) :
    ¬Standing (s.history calls) token issuedAt := by
  intro hstanding
  obtain ⟨earlier, hmem, hissues⟩ := issues_of_mem_history hstanding.mem
  rw [List.filterMap_append, List.nodup_append] at hfresh
  exact hfresh.2.2 token (List.mem_filterMap.2 ⟨earlier, hmem, hissues⟩) token
    (List.mem_filterMap.2 ⟨call, List.mem_singleton_self _, htoken⟩) rfl

theorem records_run (hempty : s.sessions = []) (hlimit : 0 < s.maxSessions)
    (htimes : calls.Pairwise fun a b => a.now ≤ b.now)
    (hfresh : (calls.filterMap AuthCall.issues).Nodup) (hlast : ∀ call ∈ calls, call.now ≤ last) :
    (s.run calls).Records (s.history calls) last := by
  induction calls using List.reverseRecOn generalizing last with
  | nil =>
    refine ⟨?_, ?_, ?_, fun token issuedAt hstanding => absurd hstanding not_standing_nil⟩
    · exact (congrArg (List.map Prod.fst) hempty) ▸ List.nodup_nil
    · exact (congrArg List.length hempty) ▸ Nat.zero_le _
    · intro e he
      change e ∈ s.sessions at he
      rw [hempty] at he
      cases he
  | append_singleton calls call ih =>
    obtain ⟨hcalls, -, hearlier⟩ := List.pairwise_append.1 htimes
    have hinit : (s.run calls).Records (s.history calls) call.now := by
      refine ih hcalls ?_ fun earlier hmem => hearlier earlier hmem call (List.mem_singleton_self _)
      rw [List.filterMap_append] at hfresh
      exact hfresh.of_append_left
    have hnow := hlast call (List.mem_append_right _ (List.mem_singleton_self _))
    refine Records.mono ?_ hnow
    rw [run_append, history_append]
    obtain ⟨now, op⟩ := call
    cases op with
    | createSession authMethod userId token order =>
      refine hinit.createSession ?_ authMethod userId (not_standing_of_fresh _ hfresh rfl) order
      rw [(s.run_config calls).2]
      exact hlimit
    | revokeSession token => exact hinit.revokeSession token
    | isValid token =>
      show (s.run calls).Records (s.history calls ++ []) now
      rw [List.append_nil]
      exact hinit

/-- Two sessions with one token are one session. -/
theorem Records.eq_of_token (h : s.Records history last) {e e' : String × SessionEntry}
    (he : e ∈ s.sessions) (he' : e' ∈ s.sessions) (heq : e.1 = e'.1) : e = e' :=
  List.inj_on_of_nodup_map h.nodup he he' heq

/-- **The session store**: there are never more live sessions than the limit; a token is valid
    exactly if it is in force; and a session is evicted only if the limit is reached, and then
    exactly one that expires first. -/
theorem session_store (ttl m : ℕ) (hm : 0 < m) (calls : List AuthCall)
    (htimes : calls.Pairwise fun a b => a.now ≤ b.now)
    (hfresh : (calls.filterMap AuthCall.issues).Nodup) :
    (∀ now, (∀ call ∈ calls, call.now ≤ now) →
      (((new ttl m).run calls).live now).length ≤ m ∧
        ∀ token, ((new ttl m).run calls).isValid now token = true ↔
          InForce ttl ((new ttl m).history calls) token now) ∧
    ∀ before now authMethod userId token order after,
      calls = before ++ ⟨now, .createSession authMethod userId token order⟩ :: after →
      let s := (new ttl m).run before
      let created := s.createSession now authMethod userId token order
      let entry := (token, SessionEntry.mk (now + ttl) authMethod userId)
      ((s.live now).length < m ∧ s.evictee now order = none ∧
          ∀ e, e ∈ created.sessions ↔ e = entry ∨ e ∈ s.live now) ∨
        ((s.live now).length = m ∧ ∃ oldest ∈ s.live now, s.evictee now order = some oldest.1 ∧
          (∀ e ∈ s.live now, oldest.2.expiry ≤ e.2.expiry) ∧
          ∀ e, e ∈ created.sessions ↔ e = entry ∨ e ∈ s.live now ∧ e ≠ oldest) := by
  constructor
  · intro now hnow
    have hrecords := records_run (s := new ttl m) rfl hm htimes hfresh hnow
    obtain ⟨httl, hmax⟩ := (new ttl m).run_config calls
    refine ⟨?_, fun token => ?_⟩
    · exact (List.length_filter_le _ _).trans (hrecords.bounded.trans_eq hmax)
    · rw [hrecords.isValid_iff le_rfl, httl]
      rfl
  · rintro before now authMethod userId token order after rfl
    dsimp only
    obtain ⟨hbefore, -, hearlier⟩ := List.pairwise_append.1 htimes
    have hinit : (before.filterMap AuthCall.issues).Nodup := by
      rw [List.filterMap_append] at hfresh
      exact hfresh.of_append_left
    have hrecords : ((new ttl m).run before).Records ((new ttl m).history before) now :=
      records_run rfl hm hbefore hinit fun earlier hmem =>
        hearlier earlier hmem _ List.mem_cons_self
    obtain ⟨httl, hmax⟩ := (new ttl m).run_config before
    have hnew : ∀ issuedAt, ¬Standing ((new ttl m).history before) token issuedAt := by
      refine not_standing_of_fresh ⟨now, .createSession authMethod userId token order⟩ ?_ rfl
      rw [List.append_cons, List.filterMap_append] at hfresh
      exact hfresh.of_append_left
    have hmem := hrecords.mem_createSession authMethod userId order hnew
    rw [httl] at hmem
    generalize (new ttl m).run before = s at hrecords hmax hmem ⊢
    have hlive : (s.live now).length ≤ s.sessions.length := List.length_filter_le _ _
    have hbounded := hrecords.bounded
    change s.maxSessions = m at hmax
    obtain ⟨hnone, hroom⟩ | ⟨hfull, oldest, holdest, hsome, hfirst⟩ :=
      s.evictee_cases (hmax ▸ hm) now order
    · refine .inl ⟨by omega, hnone, fun e => ?_⟩
      rw [hmem, hnone]
      simp
      rfl
    · refine .inr ⟨by omega, oldest, holdest, hsome, hfirst, fun e => ?_⟩
      rw [hmem, hsome]
      refine or_congr_right (and_congr_right fun he => not_congr ⟨fun heq => ?_, fun heq => ?_⟩)
      · exact hrecords.eq_of_token (mem_live.1 he).1 (mem_live.1 holdest).1 (Option.some.inj heq)
      · rw [heq]

theorem session_store_two :
    let order : IterOrder := ⟨id, fun _ => .refl _⟩
    let calls : List AuthCall := [⟨0, .createSession "totp" "" "a" order⟩,
      ⟨3, .createSession "token" "" "b" order⟩, ⟨4, .revokeSession "a"⟩]
    ((((new 10 1).run calls).live 5).length ≤ 1) ∧
      ∀ token, ((new 10 1).run calls).isValid 5 token = true ↔
        InForce 10 ((new 10 1).history calls) token 5 :=
  (session_store 10 1 (by decide) _ (by simp) (by decide)).1 5 (by simp)

end AuthManager

end Nexterm.Web
