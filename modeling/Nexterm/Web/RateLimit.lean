/-
  Runs of the rate limiter (`rate_limit.rs`): calls for any keys, one after the other.

  * `Call`, `Event`, `run`: calls, what came of them, and the table at the end.
  * `sinceReset`: the attempts of a key that were allowed since it was last reset.
  * `Tracks`: the table holds the attempts of each key that are inside the window, and the
    allowed attempts always found room; `tracks_run`.
  * `purge_eq`: the purge of empty entries finds none.
  * `RateLimited`: limits, reasons for rejections, independence of keys, and a table of live
    keys; `Recent`: there are few keys, or all the others are live.
  * `rateLimited_iff`: exactly in the runs whose calls are all `Recent` the table has no dead
    keys, and the rest holds in every run.
-/
import Nexterm.Lib.SlidingWindow
import Nexterm.Web.Login

namespace Nexterm.Web

open SlidingWindow

namespace RateLimiter

variable (config : RateLimitConfig)

/-- A call at some time. -/
inductive Call
  | checkAndRecord (key : String) (now : ℕ)
  | reset (key : String) (now : ℕ)

def Call.key : Call → String
  | checkAndRecord key _ | reset key _ => key

def Call.now : Call → ℕ
  | checkAndRecord _ now | reset _ now => now

/-- A call that was made, and the decision. -/
inductive Event
  | allowed (key : String) (now : ℕ)
  | rejected (key : String) (now : ℕ)
  | reset (key : String)

def Event.key : Event → String
  | allowed key _ | rejected key _ | reset key => key

/-- One call. -/
def step (l : RateLimiter) : Call → Event × RateLimiter
  | .checkAndRecord key now =>
    match l.checkAndRecord config key now with
    | (true, l) => (.allowed key now, l)
    | (false, l) => (.rejected key now, l)
  | .reset key _ => (.reset key, RateLimiter.reset l key)

/-- Some calls, from the beginning. -/
def run (calls : List Call) : List Event × RateLimiter :=
  calls.foldl (fun s c => (s.1 ++ [(step config s.2 c).1], (step config s.2 c).2)) ([], ∅)

/-- The attempts of a key that were allowed since it was last reset. -/
def sinceReset (key : String) (log : List Event) : List ℕ :=
  log.foldl (fun times e => match e with
    | .allowed key' now => if key' = key then times ++ [now] else times
    | .rejected _ _ => times
    | .reset key' => if key' = key then [] else times) []

/-! ## What is claimed of a run -/

/-- The key has an attempt inside the window. -/
def Live (l : RateLimiter) (key : String) (now : ℕ) : Prop :=
  live config.window now (l.getD key []) ≠ []

variable (calls : List Call)

/-- No window holds more allowed attempts of a key than the maximum. -/
def Limited : Prop :=
  ∀ pre, pre <+: calls → ∀ key start,
    (sinceReset key (run config pre).1).countP (fun t => start ≤ t ∧ t < start + config.window) ≤
      config.maxAttempts

/-- A call is rejected only if the window before it is full. -/
def Justified : Prop :=
  ∀ pre key now, pre ++ [.checkAndRecord key now] <+: calls →
    (step config (run config pre).2 (.checkAndRecord key now)).1 = .rejected key now →
      config.maxAttempts ≤
        (sinceReset key (run config pre).1).countP (fun t => t ≤ now ∧ now < t + config.window)

/-- What comes of the calls of a key is what comes of them alone. -/
def Independent : Prop :=
  ∀ key, (run config calls).1.filter (·.key = key) =
    (run config (calls.filter (·.key = key))).1

/-- A table that is left with many keys holds live ones only. -/
def Purged : Prop :=
  ∀ pre c, pre ++ [c] <+: calls → 1024 < (run config (pre ++ [c])).2.size →
    ∀ key ∈ (run config (pre ++ [c])).2, Live config (run config (pre ++ [c])).2 key c.now

def RateLimited : Prop :=
  Limited config calls ∧ Justified config calls ∧ Independent config calls ∧ Purged config calls

/-- Before the call there are few keys besides its own, or all of these are live. -/
def Recent (l : RateLimiter) : Call → Prop
  | .checkAndRecord key now => (l.erase key).size + 1 ≤ 1024 ∨
      0 < config.maxAttempts ∧ ∀ key' ∈ l.erase key, Live config l key' now
  | .reset key now => (l.erase key).size ≤ 1024 ∨ ∀ key' ∈ l.erase key, Live config l key' now

/-! ## Runs -/

variable {config calls} {l : RateLimiter} {key : String} {now : ℕ}

theorem run_snoc (pre : List Call) (c : Call) : run config (pre ++ [c]) =
    ((run config pre).1 ++ [(step config (run config pre).2 c).1],
      (step config (run config pre).2 c).2) := List.foldl_concat ..

theorem sinceReset_snoc (log : List Event) (e : Event) : sinceReset key (log ++ [e]) =
    match e with
    | .allowed key' now => if key' = key then sinceReset key log ++ [now] else sinceReset key log
    | .rejected _ _ => sinceReset key log
    | .reset key' => if key' = key then [] else sinceReset key log := List.foldl_concat ..

theorem size_insert_eq (l : RateLimiter) (key : String) (v : List ℕ) :
    Std.ExtTreeMap.size (l.insert key v) = Std.ExtTreeMap.size (l.erase key) + 1 := by
  rw [← Std.ExtTreeMap.insert_erase_eq key v, Std.ExtTreeMap.size_insert]
  simp

theorem getD_insert_eq (l : RateLimiter) (key key' : String) (v : List ℕ) :
    (l.insert key v).getD key' [] = if key = key' then v else l.getD key' [] := by
  rw [Std.ExtTreeMap.getD_eq_getD_getElem?, Std.ExtTreeMap.getElem?_insert_eq,
    Std.ExtTreeMap.getD_eq_getD_getElem?]
  split_ifs <;> rfl

theorem getD_erase_eq (l : RateLimiter) (key key' : String) :
    (l.erase key).getD key' [] = if key = key' then [] else l.getD key' [] := by
  rw [Std.ExtTreeMap.getD_eq_getD_getElem?, Std.ExtTreeMap.getElem?_erase_eq,
    Std.ExtTreeMap.getD_eq_getD_getElem?]
  split_ifs <;> rfl

/-- No entry is empty. -/
def Filled (l : RateLimiter) : Prop := ∀ key ∈ l, l.getD key [] ≠ []

/-- The window has room for the key. -/
def Room (config : RateLimitConfig) (l : RateLimiter) (key : String) (now : ℕ) : Prop :=
  (live config.window now (l.getD key [])).length < config.maxAttempts

/-- The purge of empty entries finds none. -/
theorem purge_eq (h : Filled l) (key : String) (v : List ℕ) (now : ℕ) :
    (l.insert key (v ++ [now])).filter (fun _ v => !v.isEmpty) = l.insert key (v ++ [now]) := by
  refine Std.ExtTreeMap.filter_eq_self_iff.2 fun key' hmem => ?_
  have hne : (l.insert key (v ++ [now])).getD key' [] ≠ [] := by
    rw [getD_insert_eq]
    split_ifs with heq
    · exact List.concat_ne_nil _ _
    · exact h key' ((Std.ExtTreeMap.mem_insert_eq.1 hmem).resolve_left heq)
  rw [Std.ExtTreeMap.getElem_eq_getD [], Bool.not_eq_true', List.isEmpty_eq_false_iff]
  exact hne

/-- A call is allowed if there is room, and recorded then. -/
theorem step_allowed (h : Filled l) (hroom : Room config l key now) :
    step config l (.checkAndRecord key now) =
      (.allowed key now, l.insert key (live config.window now (l.getD key []) ++ [now])) := by
  have hcheck : l.checkAndRecord config key now =
      (true, l.insert key (live config.window now (l.getD key []) ++ [now])) := by
    have hnot : ¬(fresh config now (l.getD key [])).length ≥ config.maxAttempts := not_le.2 hroom
    unfold checkAndRecord
    dsimp only
    rw [if_neg hnot, purge_eq h, ite_self]
    rfl
  rw [step, hcheck]

theorem step_rejected (hroom : ¬Room config l key now) :
    step config l (.checkAndRecord key now) =
      (.rejected key now, l.insert key (live config.window now (l.getD key []))) := by
  have hcheck : l.checkAndRecord config key now =
      (false, l.insert key (live config.window now (l.getD key []))) := if_pos (not_lt.1 hroom)
  rw [step, hcheck]

/-! ## The table and the allowed attempts -/

/-- The table holds the allowed attempts that are inside the window. -/
structure Tracks (config : RateLimitConfig) (log : List Event) (l : RateLimiter) (now : ℕ) :
    Prop where
  filled : 0 < config.maxAttempts → Filled l
  admitted : ∀ key, Admitted config.window config.maxAttempts (sinceReset key log)
  past : ∀ key, ∀ t ∈ sinceReset key log, t ≤ now
  live_eq : ∀ key, live config.window now (l.getD key []) =
    live config.window now (sinceReset key log)

namespace Tracks

variable {log : List Event}

theorem mono {now' : ℕ} (h : Tracks config log l now) (hle : now ≤ now') :
    Tracks config log l now' where
  filled := h.filled
  admitted := h.admitted
  past key t ht := (h.past key t ht).trans hle
  live_eq key := live_eq_of_live_eq (h.live_eq key) hle

/-- A call that is allowed. -/
theorem allowed (h : Tracks config log l now) (hroom : Room config l key now) :
    Tracks config (log ++ [.allowed key now])
      (l.insert key (live config.window now (l.getD key []) ++ [now])) now where
  filled hpos key' hmem := by
    rw [getD_insert_eq]
    split_ifs with heq
    · exact List.concat_ne_nil _ _
    · exact h.filled hpos key' ((Std.ExtTreeMap.mem_insert_eq.1 hmem).resolve_left heq)
  admitted key' := by
    rw [sinceReset_snoc]
    dsimp only
    split_ifs with heq
    · subst heq
      refine .snoc (h.admitted key) (h.past key) ?_
      rw [← h.live_eq]
      exact hroom
    · exact h.admitted key'
  past key' t ht := by
    rw [sinceReset_snoc] at ht
    dsimp only at ht
    split_ifs at ht
    · rcases List.mem_append.1 ht with ht | ht
      · exact h.past key' t ht
      · exact (List.mem_singleton.1 ht).le
    · exact h.past key' t ht
  live_eq key' := by
    rw [sinceReset_snoc, getD_insert_eq]
    dsimp only
    split_ifs with heq
    · rw [live_append, live_append, live_live le_rfl, heq, h.live_eq]
    · exact h.live_eq key'

theorem rejected (h : Tracks config log l now) (hroom : ¬Room config l key now) :
    Tracks config (log ++ [.rejected key now])
      (l.insert key (live config.window now (l.getD key []))) now where
  filled hpos key' hmem := by
    rw [getD_insert_eq]
    split_ifs with heq
    · exact List.ne_nil_of_length_pos (hpos.trans_le (not_lt.1 hroom))
    · exact h.filled hpos key' ((Std.ExtTreeMap.mem_insert_eq.1 hmem).resolve_left heq)
  admitted key' := by
    rw [sinceReset_snoc]
    exact h.admitted key'
  past key' t ht := by
    rw [sinceReset_snoc] at ht
    exact h.past key' t ht
  live_eq key' := by
    rw [sinceReset_snoc, getD_insert_eq]
    dsimp only
    split_ifs with heq
    · rw [live_live le_rfl, heq, h.live_eq]
    · exact h.live_eq key'

theorem reset (h : Tracks config log l now) (key : String) :
    Tracks config (log ++ [.reset key]) (l.erase key) now where
  filled hpos key' hmem := by
    obtain ⟨hne, hmem⟩ := Std.ExtTreeMap.mem_erase_eq.1 hmem
    rw [getD_erase_eq, if_neg hne]
    exact h.filled hpos key' hmem
  admitted key' := by
    rw [sinceReset_snoc]
    dsimp only
    split_ifs
    · exact .nil
    · exact h.admitted key'
  past key' t ht := by
    rw [sinceReset_snoc] at ht
    dsimp only at ht
    split_ifs at ht
    · cases ht
    · exact h.past key' t ht
  live_eq key' := by
    rw [sinceReset_snoc, getD_erase_eq]
    dsimp only
    split_ifs
    · rfl
    · exact h.live_eq key'

/-- One call. -/
theorem step {c : Call} (h : Tracks config log l now) (hle : now ≤ c.now) :
    Tracks config (log ++ [(step config l c).1]) (step config l c).2 c.now := by
  have h := h.mono hle
  cases c with
  | checkAndRecord key now =>
    by_cases hroom : Room config l key now
    · rw [step_allowed (h.filled (Nat.zero_lt_of_lt hroom)) hroom]
      exact h.allowed hroom
    · rw [step_rejected hroom]
      exact h.rejected hroom
  | reset key now => exact h.reset key

end Tracks

theorem tracks_run (calls : List Call) (hsorted : calls.Pairwise fun c c' => c.now ≤ c'.now)
    (hnow : ∀ c ∈ calls, c.now ≤ now) :
    Tracks config (run config calls).1 (run config calls).2 now := by
  induction calls using List.reverseRecOn generalizing now with
  | nil =>
    exact ⟨fun _ key hmem => absurd hmem Std.ExtTreeMap.not_mem_empty, fun _ => .nil,
      fun _ _ ht => (nomatch ht), fun _ => rfl⟩
  | append_singleton calls c ih =>
    obtain ⟨hsorted, -, hlast⟩ := List.pairwise_append.1 hsorted
    have hc : ∀ c' ∈ calls, c'.now ≤ c.now := fun c' hc' =>
      hlast c' hc' c (List.mem_singleton.2 rfl)
    rw [run_snoc]
    refine ((ih hsorted hc).step le_rfl).mono (hnow c ?_)
    exact List.mem_append_right _ (List.mem_singleton.2 rfl)

/-- What is known when a call of a run is made. -/
theorem tracks_at (config : RateLimitConfig) {pre : List Call} {c : Call}
    (hsorted : calls.Pairwise fun c c' => c.now ≤ c'.now) (hpre : pre ++ [c] <+: calls) :
    Tracks config (run config pre).1 (run config pre).2 c.now := by
  obtain ⟨hpre, -, hlast⟩ := List.pairwise_append.1 (hsorted.sublist hpre.sublist)
  exact tracks_run pre hpre fun c' hc' => hlast c' hc' c (List.mem_singleton.2 rfl)

theorem exists_tracks (config : RateLimitConfig) {pre : List Call}
    (hsorted : pre.Pairwise fun c c' => c.now ≤ c'.now) :
    ∃ now, Tracks config (run config pre).1 (run config pre).2 now := by
  rcases List.eq_nil_or_concat' pre with rfl | ⟨pre', c, rfl⟩
  · exact ⟨0, tracks_run [] hsorted fun _ hc => nomatch hc⟩
  · refine ⟨c.now, tracks_run _ hsorted fun c' hc' => ?_⟩
    rcases List.mem_append.1 hc' with hc' | hc'
    · exact (List.pairwise_append.1 hsorted).2.2 c' hc' c (List.mem_singleton.2 rfl)
    · exact (congrArg Call.now (List.mem_singleton.1 hc')).le

/-! ## Limits, reasons, independence -/

theorem limited (hsorted : calls.Pairwise fun c c' => c.now ≤ c'.now) : Limited config calls := by
  intro pre hpre key start
  obtain ⟨now, h⟩ := exists_tracks config (hsorted.sublist hpre.sublist)
  exact (h.admitted key).countP_le start

theorem justified (hsorted : calls.Pairwise fun c c' => c.now ≤ c'.now) :
    Justified config calls := by
  intro pre key now hpre hrejected
  have h := tracks_at config hsorted hpre
  have hfull : ¬Room config (run config pre).2 key now := fun hroom => by
    rw [step_allowed (h.filled (Nat.zero_lt_of_lt hroom)) hroom] at hrejected
    cases hrejected
  refine (not_lt.1 hfull).trans ?_
  change Tracks _ _ _ now at h
  rw [h.live_eq, live, ← List.countP_eq_length_filter]
  refine le_of_eq (List.countP_congr fun t ht => ?_)
  have hpast : t ≤ now := h.past key t ht
  simp only [decide_eq_true_eq]
  omega

/-- The decision, and what is stored for the key, depend on what was stored for it only. -/
theorem step_congr {l l' : RateLimiter} {c : Call} (hl : 0 < config.maxAttempts → Filled l)
    (hl' : 0 < config.maxAttempts → Filled l') (h : l.getD c.key [] = l'.getD c.key []) :
    (step config l c).1 = (step config l' c).1 ∧
      (step config l c).2.getD c.key [] = (step config l' c).2.getD c.key [] := by
  cases c with
  | checkAndRecord key now =>
    change l.getD key [] = l'.getD key [] at h
    by_cases hroom : Room config l key now
    · have hroom' : Room config l' key now := by rwa [Room, ← h]
      rw [step_allowed (hl (Nat.zero_lt_of_lt hroom)) hroom,
        step_allowed (hl' (Nat.zero_lt_of_lt hroom)) hroom', Call.key, getD_insert_eq,
        getD_insert_eq, h]
      exact ⟨rfl, rfl⟩
    · have hroom' : ¬Room config l' key now := by rwa [Room, ← h]
      rw [step_rejected hroom, step_rejected hroom', Call.key, getD_insert_eq, getD_insert_eq, h]
      exact ⟨rfl, rfl⟩
  | reset key now =>
    refine ⟨rfl, ?_⟩
    show (l.erase key).getD key [] = (l'.erase key).getD key []
    rw [getD_erase_eq, getD_erase_eq, if_pos rfl, if_pos rfl]

/-- Other keys keep what is stored for them. -/
theorem step_frame {c : Call} (hl : 0 < config.maxAttempts → Filled l) (h : c.key ≠ key) :
    (step config l c).2.getD key [] = l.getD key [] := by
  cases c with
  | checkAndRecord key' now =>
    by_cases hroom : Room config l key' now
    · rw [step_allowed (hl (Nat.zero_lt_of_lt hroom)) hroom, getD_insert_eq]
      exact if_neg h
    · rw [step_rejected hroom, getD_insert_eq]
      exact if_neg h
  | reset key' now => exact (getD_erase_eq l key' key).trans (if_neg h)

theorem key_step (l : RateLimiter) (c : Call) : (step config l c).1.key = c.key := by
  cases c with
  | checkAndRecord key now =>
    simp only [step]
    split <;> rfl
  | reset key now => rfl

theorem independent_run (calls : List Call)
    (hsorted : calls.Pairwise fun c c' => c.now ≤ c'.now) (key : String) :
    (run config calls).1.filter (·.key = key) = (run config (calls.filter (·.key = key))).1 ∧
      (run config calls).2.getD key [] =
        (run config (calls.filter (·.key = key))).2.getD key [] := by
  induction calls using List.reverseRecOn with
  | nil => exact ⟨rfl, rfl⟩
  | append_singleton calls c ih =>
    obtain ⟨hsorted, -, -⟩ := List.pairwise_append.1 hsorted
    obtain ⟨hlog, htable⟩ := ih hsorted
    obtain ⟨now, h⟩ := exists_tracks config hsorted
    obtain ⟨now', h'⟩ := exists_tracks config
      (hsorted.sublist (List.filter_sublist (p := (·.key = key))))
    rw [run_snoc, List.filter_append, List.filter_append, List.filter_singleton,
      List.filter_singleton, key_step]
    by_cases hkey : c.key = key
    · subst hkey
      obtain ⟨hevent, hstored⟩ := step_congr h.filled h'.filled htable
      simp only [decide_true, cond_true, run_snoc, hlog, hevent, hstored, and_self]
    · simp only [decide_eq_false hkey, cond_false, List.append_nil, hlog, true_and]
      exact (step_frame h.filled hkey).trans htable

theorem independent (hsorted : calls.Pairwise fun c c' => c.now ≤ c'.now) :
    Independent config calls := fun key => (independent_run calls hsorted key).1

/-! ## The size of the table -/

theorem mem_step {c : Call} {key : String} (hl : 0 < config.maxAttempts → Filled l)
    (h : c.key ≠ key) : key ∈ (step config l c).2 ↔ key ∈ l := by
  cases c with
  | checkAndRecord key' now =>
    have hinsert : ∀ v, key ∈ l.insert key' v ↔ key ∈ l := fun v =>
      Std.ExtTreeMap.mem_insert_eq.trans (or_iff_right h)
    by_cases hroom : Room config l key' now
    · rw [step_allowed (hl (Nat.zero_lt_of_lt hroom)) hroom]
      exact hinsert _
    · rw [step_rejected hroom]
      exact hinsert _
  | reset key' now => exact Std.ExtTreeMap.mem_erase_eq.trans (and_iff_right h)

theorem mem_check (hl : 0 < config.maxAttempts → Filled l) :
    key ∈ (step config l (.checkAndRecord key now)).2 := by
  by_cases hroom : Room config l key now
  · rw [step_allowed (hl (Nat.zero_lt_of_lt hroom)) hroom]
    exact Std.ExtTreeMap.mem_insert_self
  · rw [step_rejected hroom]
    exact Std.ExtTreeMap.mem_insert_self

theorem size_check (hl : 0 < config.maxAttempts → Filled l) :
    Std.ExtTreeMap.size (step config l (.checkAndRecord key now)).2 =
      Std.ExtTreeMap.size (l.erase key) + 1 := by
  by_cases hroom : Room config l key now
  · rw [step_allowed (hl (Nat.zero_lt_of_lt hroom)) hroom]
    exact size_insert_eq l key _
  · rw [step_rejected hroom]
    exact size_insert_eq l key _

/-- The other keys keep their attempts. -/
theorem live_step_iff {c : Call} (hl : 0 < config.maxAttempts → Filled l) :
    (∀ key ∈ (step config l c).2, c.key ≠ key → Live config (step config l c).2 key c.now) ↔
      ∀ key ∈ l.erase c.key, Live config l key c.now := by
  refine forall_congr' fun key => ⟨fun h hmem => ?_, fun h hmem hne => ?_⟩
  · obtain ⟨hne, hmem⟩ := Std.ExtTreeMap.mem_erase_eq.1 hmem
    have hlive := h ((mem_step hl hne).2 hmem) hne
    rwa [Live, step_frame hl hne] at hlive
  · rw [Live, step_frame hl hne]
    exact h (Std.ExtTreeMap.mem_erase_eq.2 ⟨hne, (mem_step hl hne).1 hmem⟩)

/-- The key of the call is live after it, if it can be. -/
theorem live_check (hl : 0 < config.maxAttempts → Filled l) (hmax : 0 < config.maxAttempts)
    (hwindow : 0 < config.window) :
    Live config (step config l (.checkAndRecord key now)).2 key now := by
  unfold Live
  by_cases hroom : Room config l key now
  · rw [step_allowed (hl hmax) hroom, getD_insert_eq, if_pos rfl, live_append,
      live_singleton hwindow]
    exact List.concat_ne_nil _ _
  · rw [step_rejected hroom, getD_insert_eq, if_pos rfl, live_live le_rfl]
    exact List.ne_nil_of_length_pos (hmax.trans_le (not_lt.1 hroom))

/-- Nothing is live in a window without room, or without length. -/
theorem pos_of_live {log : List Event} (h : Tracks config log l now)
    (hlive : Live config l key now) :
    0 < config.maxAttempts ∧ 0 < config.window := by
  rw [Live, h.live_eq] at hlive
  obtain ⟨t, ht⟩ := List.exists_mem_of_ne_nil _ hlive
  obtain ⟨hmem, hwindow⟩ := List.mem_filter.1 ht
  exact ⟨(h.admitted key).pos (List.ne_nil_of_mem hmem),
    Nat.zero_lt_of_lt (of_decide_eq_true hwindow)⟩

/-- One call leaves many keys only if they are live, exactly where it is `Recent`. -/
theorem purged_step_iff {log : List Event} {c : Call} (h : Tracks config log l c.now) :
    (1024 < Std.ExtTreeMap.size (step config l c).2 →
      ∀ key ∈ (step config l c).2, Live config (step config l c).2 key c.now) ↔
        Recent config l c := by
  have hothers := live_step_iff (c := c) h.filled
  have hstep := h.step (c := c) le_rfl
  cases c with
  | checkAndRecord key now =>
    rw [size_check h.filled, Recent]
    by_cases hfew : Std.ExtTreeMap.size (l.erase key) + 1 ≤ 1024
    · exact ⟨fun _ => Or.inl hfew, fun _ hmany => absurd hfew (Nat.not_le.2 hmany)⟩
    rw [or_iff_right hfew]
    constructor
    · intro hall
      have hall := hall (Nat.not_le.1 hfew)
      exact ⟨(pos_of_live hstep (hall key (mem_check h.filled))).1,
        hothers.1 fun key' hmem _ => hall key' hmem⟩
    · rintro ⟨hmax, hlive⟩ - key' hmem
      by_cases hne : key = key'
      · subst hne
        -- some other key is live, so the window has a length
        have hkeys : 0 < (l.erase key).keys.length := by
          rw [Std.ExtTreeMap.length_keys]
          omega
        obtain ⟨key', hmem'⟩ := List.exists_mem_of_length_pos hkeys
        have hlive' := hlive key' (Std.ExtTreeMap.mem_keys.1 hmem')
        exact live_check h.filled hmax (pos_of_live h hlive').2
      · exact hothers.2 hlive key' hmem hne
  | reset key now =>
    have hne : ∀ key' ∈ l.erase key, key ≠ key' := fun key' hmem =>
      (Std.ExtTreeMap.mem_erase_eq.1 hmem).1
    show (1024 < Std.ExtTreeMap.size (l.erase key) → ∀ key' ∈ l.erase key, _) ↔ _ ∨ _
    change _ ↔ ∀ key' ∈ l.erase key, Live config l key' now at hothers
    rw [← hothers, ← Nat.not_lt, ← imp_iff_not_or]
    exact imp_congr_right fun _ => forall₂_congr fun key' hmem =>
      ⟨fun h _ => h, fun h => h (hne key' hmem)⟩

theorem purged_iff (hsorted : calls.Pairwise fun c c' => c.now ≤ c'.now) :
    Purged config calls ↔ ∀ pre c, pre ++ [c] <+: calls → Recent config (run config pre).2 c := by
  refine forall_congr' fun pre => forall_congr' fun c => imp_congr_right fun hpre => ?_
  rw [run_snoc]
  exact purged_step_iff (tracks_at config hsorted hpre)

/-- **Rate limiter.** In every run the limits hold, rejections have their reason and keys are
    independent; the table holds live keys only, when it is large, exactly in the runs whose calls
    find few keys or live ones. -/
theorem rateLimited_iff (config : RateLimitConfig) {calls : List Call}
    (hsorted : calls.Pairwise fun c c' => c.now ≤ c'.now) :
    RateLimited config calls ↔
      ∀ pre c, pre ++ [c] <+: calls → Recent config (run config pre).2 c := by
  rw [← purged_iff hsorted]
  exact ⟨fun h => h.2.2.2, fun h => ⟨limited hsorted, justified hsorted, independent hsorted, h⟩⟩

theorem rateLimited_iff_two : RateLimited .totpDefault
      [.checkAndRecord "192.0.2.1" 0, .checkAndRecord "192.0.2.2" 60000000000] ↔
    ∀ pre c, pre ++ [c] <+:
        [.checkAndRecord "192.0.2.1" 0, .checkAndRecord "192.0.2.2" 60000000000] →
      Recent .totpDefault (run .totpDefault pre).2 c :=
  rateLimited_iff .totpDefault (by decide)

/-! ## Dead keys -/

/-- Different keys, each tried once. -/
def crowd (n : ℕ) : List Call :=
  (List.range n).map fun i => .checkAndRecord (String.ofList (List.replicate i 'k')) 0

theorem tracks_crowd (config : RateLimitConfig) (n : ℕ) :
    Tracks config (run config (crowd n)).1 (run config (crowd n)).2 0 := by
  have hzero : ∀ c ∈ crowd n, c.now = 0 := fun c hc => by
    obtain ⟨i, -, rfl⟩ := List.mem_map.1 hc
    rfl
  refine tracks_run _ ?_ fun c hc => (hzero c hc).le
  exact List.pairwise_of_forall_mem_list fun c hc c' _ => (hzero c hc).trans_le (Nat.zero_le _)

theorem crowd_succ (n : ℕ) : crowd (n + 1) =
    crowd n ++ [.checkAndRecord (String.ofList (List.replicate n 'k')) 0] := by
  rw [crowd, List.range_succ, List.map_append]
  rfl

theorem mem_run_crowd {n i : ℕ} (h : i < n) :
    String.ofList (List.replicate i 'k') ∈ (run config (crowd n)).2 := by
  induction n with
  | zero => exact absurd h (Nat.not_lt_zero i)
  | succ n ih =>
    have hfilled := (tracks_crowd config n).filled
    rw [crowd_succ, run_snoc]
    rcases Nat.lt_succ_iff_lt_or_eq.1 h with hlt | rfl
    · refine (mem_step hfilled fun heq => ?_).2 (ih hlt)
      have hlen := congrArg String.length heq
      simp only [Call.key, String.length_ofList, List.length_replicate] at hlen
      exact absurd hlen hlt.ne'
    · exact mem_check hfilled

theorem le_size_crowd (n : ℕ) : n ≤ Std.ExtTreeMap.size (run config (crowd n)).2 := by
  have hnodup : ((List.range n).map fun i => String.ofList (List.replicate i 'k')).Nodup := by
    refine List.nodup_range.map fun i j heq => ?_
    simpa using congrArg String.length heq
  have hsub : ((List.range n).map fun i => String.ofList (List.replicate i 'k')) ⊆
      (run config (crowd n)).2.keys := fun key hkey => by
    obtain ⟨i, hi, rfl⟩ := List.mem_map.1 hkey
    exact Std.ExtTreeMap.mem_keys.2 (mem_run_crowd (List.mem_range.1 hi))
  have hle := (List.subperm_of_subset hnodup hsub).length_le
  rwa [List.length_map, List.length_range, Std.ExtTreeMap.length_keys] at hle

/-- A minute later all of them are still in the table. -/
theorem not_purged_crowd {n : ℕ} (hn : 1024 < n) : ¬Purged .totpDefault
    (crowd n ++ [.checkAndRecord "192.0.2.1" 60000000000]) := by
  intro hpurged
  have h := (tracks_crowd .totpDefault n).mono (Nat.zero_le 60000000000)
  have hall := hpurged (crowd n) _ (List.prefix_refl _)
  rw [run_snoc, size_check h.filled] at hall
  have hsize : n ≤ Std.ExtTreeMap.size ((run .totpDefault (crowd n)).2.erase "192.0.2.1") + 1 :=
    (le_size_crowd n).trans Std.ExtTreeMap.size_le_size_erase
  have hkey : (Call.checkAndRecord "192.0.2.1" 60000000000).key ≠
      String.ofList (List.replicate 0 'k') := by decide
  have hlive := hall (hn.trans_le hsize) _
    ((mem_step h.filled hkey).2 (mem_run_crowd (Nat.zero_lt_of_lt hn)))
  rw [Live, step_frame h.filled hkey] at hlive
  -- its attempts are from the beginning
  refine hlive ((h.live_eq _).trans (List.filter_eq_nil_iff.2 fun t ht => ?_))
  have hpast := (tracks_crowd .totpDefault n).past _ t ht
  rw [Nat.le_zero.1 hpast]
  decide

theorem crowd_kept : ¬RateLimited .totpDefault
    (crowd 1025 ++ [.checkAndRecord "192.0.2.1" 60000000000]) :=
  fun h => not_purged_crowd (by decide) h.2.2.2

end RateLimiter

end Nexterm.Web
