/-
  Setting up one-time passwords while the server runs (`handlers/login.rs`): the setup request
  checks a code with the pending manager, and then makes a new manager of the same secret.

  * `SetupState`, `step`: the managers, the setup requests under way and what was accepted.
  * `Manager.Aware`: no other manager has accepted the window that a request presents.
  * `single_use_iff`: no window is accepted twice exactly when the managers are always aware.

  A login that the rate limit turns away, or that finds no secret, does nothing here.
-/
import Nexterm.Web.Otp

namespace Nexterm.Web.Setup

open TotpManager (Call Spent)

/-- A manager: its secret and the codes it has accepted; `id` tells the objects apart. -/
structure Manager where
  id : ℕ
  secret : String
  used : Finset (ℕ × String)

/-- A request that succeeded: the manager that checked it, the secret and the window. -/
structure Acceptance where
  manager : ℕ
  secret : String
  window : ℕ
  deriving DecidableEq

/-- A setup request whose code was accepted: what it has still to do. -/
inductive Stage
  /-- It has the secret and installs a manager. -/
  | install (secret : String)
  /-- It removes the pending setup. -/
  | finish

/-- The state of the handlers; `managers` counts the objects, `accepted` is a history. -/
structure SetupState where
  pending : Option Manager
  totp : Option Manager
  underWay : List Stage
  managers : ℕ
  accepted : List Acceptance

/-- What can happen next. -/
inductive Event
  | setupVerify (call : Call)
  /-- The setup request at this place goes on. -/
  | proceed (i : ℕ)
  | login (call : Call)

/-- The check of a code that the event makes. -/
def Event.call : Event → Option Call
  | setupVerify call | login call => some call
  | proceed _ => none

variable (generate : String → ℕ → String)

/-- Check a code with a manager: the manager afterwards, and what it accepts. -/
def Manager.check (m : Manager) (call : Call) : Manager × Option Acceptance :=
  ({ m with used := (TotpManager.verify (generate m.secret) m.used call).2 },
    (TotpManager.consumes (generate m.secret) m.used call).map (⟨m.id, m.secret, ·⟩))

namespace SetupState

/-- The server starts with a configured secret, or with one to be set up. -/
def start (pending totp : Option String) : SetupState where
  pending := pending.map (⟨0, ·, ∅⟩)
  totp := totp.map (⟨1, ·, ∅⟩)
  underWay := []
  managers := 2
  accepted := []

def step (s : SetupState) : Event → SetupState
  | .setupVerify call =>
    match s.pending with
    | none => s
    | some m =>
      let result := m.check generate call
      { s with
        pending := some result.1
        underWay := s.underWay ++ (result.2.map fun _ => Stage.install m.secret).toList
        accepted := result.2.toList ++ s.accepted }
  | .proceed i =>
    match s.underWay[i]? with
    | none => s
    | some (.install secret) =>
      { s with
        totp := some ⟨s.managers, secret, ∅⟩
        underWay := s.underWay.set i .finish
        managers := s.managers + 1 }
    | some .finish => { s with pending := none, underWay := s.underWay.eraseIdx i }
  | .login call =>
    match s.totp with
    | none => s
    | some m =>
      let result := m.check generate call
      { s with totp := some result.1, accepted := result.2.toList ++ s.accepted }

def run (s : SetupState) (events : List Event) : SetupState := events.foldl (step generate) s

/-- No window of a secret is accepted twice. -/
def SingleUse (s : SetupState) : Prop := (s.accepted.map fun a => (a.secret, a.window)).Nodup

end SetupState

/-- If the window that a call presents was accepted before, it was by this manager. -/
def Manager.Aware (m : Manager) (accepted : List Acceptance) (call : Call) : Prop :=
  ∀ a ∈ accepted, a.secret = m.secret →
    call.target (generate m.secret) = some a.window → a.manager = m.id

/-- The manager that makes the check is aware. -/
def SetupState.Aware (s : SetupState) : Event → Prop
  | .setupVerify call => ∀ m ∈ s.pending, m.Aware generate s.accepted call
  | .proceed _ => True
  | .login call => ∀ m ∈ s.totp, m.Aware generate s.accepted call

/-- The managers are aware at every check of a run. -/
def AllAware (s : SetupState) : List Event → Prop
  | [] => True
  | e :: events => s.Aware generate e ∧ AllAware (s.step generate e) events

/-! ## One manager -/

/-- What a manager has recorded is what it has accepted, as long as that matters. -/
structure Manager.Sound (accepted : List Acceptance) (t : ℤ) (m : Manager) : Prop where
  recorded : ∀ a ∈ accepted, a.manager = m.id →
    a.secret = m.secret ∧ Spent (generate m.secret) m.used t a.window
  known : ∀ e ∈ m.used, ⟨m.id, m.secret, e.1⟩ ∈ accepted

variable {generate} {accepted : List Acceptance} {t : ℤ} {m : Manager} {call : Call}

theorem Manager.Sound.mono (h : m.Sound generate accepted t) {t' : ℤ} (ht : t ≤ t') :
    m.Sound generate accepted t' where
  recorded a ha hid := by
    obtain ⟨hsecret, hspent⟩ := h.recorded a ha hid
    exact ⟨hsecret, hspent.imp_right fun hlt => by omega⟩
  known := h.known

/-- What another manager accepts does not matter. -/
theorem Manager.Sound.other (h : m.Sound generate accepted t) {new : List Acceptance}
    (hnew : ∀ a ∈ new, a.manager ≠ m.id) : m.Sound generate (new ++ accepted) t where
  recorded a ha hid := by
    rcases List.mem_append.1 ha with ha | ha
    · exact absurd hid (hnew a ha)
    · exact h.recorded a ha hid
  known e he := List.mem_append_right _ (h.known e he)

@[simp] theorem Manager.check_id : (m.check generate call).1.id = m.id := by
  simp only [Manager.check]

@[simp] theorem Manager.check_secret : (m.check generate call).1.secret = m.secret := by
  simp only [Manager.check]

@[simp] theorem Manager.check_used : (m.check generate call).1.used =
    (TotpManager.verify (generate m.secret) m.used call).2 := by
  simp only [Manager.check]

theorem Manager.check_accepted : (m.check generate call).2 =
    (TotpManager.consumes (generate m.secret) m.used call).map (⟨m.id, m.secret, ·⟩) := by
  simp only [Manager.check]

theorem Manager.mem_check {a : Acceptance} : a ∈ (m.check generate call).2 ↔
    ∃ w, TotpManager.consumes (generate m.secret) m.used call = some w ∧
      ⟨m.id, m.secret, w⟩ = a := by
  rw [check_accepted]
  exact Option.map_eq_some_iff

theorem Manager.Sound.check (h : m.Sound generate accepted t) (ht : t ≤ call.window) :
    (m.check generate call).1.Sound generate
      ((m.check generate call).2.toList ++ accepted) call.window where
  recorded a ha hid := by
    rw [check_id] at hid
    rw [check_secret, check_used]
    rcases List.mem_append.1 ha with ha | ha
    · obtain ⟨w, hw, rfl⟩ := mem_check.1 (Option.mem_toList.1 ha)
      exact ⟨rfl, TotpManager.spent_of_consumes hw⟩
    · obtain ⟨hsecret, hspent⟩ := h.recorded a ha hid
      exact ⟨hsecret, hspent.verify ht⟩
  known e he := by
    rw [check_used] at he
    rw [check_id, check_secret]
    obtain ⟨-, hused⟩ | ⟨w, hconsumes, -, -, hused⟩ :=
      TotpManager.verify_cases (generate m.secret) m.used call
    · rw [hused] at he
      exact List.mem_append_right _ (h.known e he)
    · rw [hused] at he
      rcases Finset.mem_insert.1 (Finset.mem_filter.1 he).1 with rfl | he
      · exact List.mem_append_left _ (Option.mem_toList.2 (mem_check.2 ⟨w, hconsumes, rfl⟩))
      · exact List.mem_append_right _ (h.known e he)

theorem manager_of_check {a : Acceptance} (ha : a ∈ (m.check generate call).2) :
    a.manager = m.id ∧ a.secret = m.secret ∧ call.target (generate m.secret) = some a.window := by
  obtain ⟨w, hw, rfl⟩ := Manager.mem_check.1 ha
  obtain ⟨hnone, -⟩ | ⟨w', hw', htarget, -, -⟩ :=
    TotpManager.verify_cases (generate m.secret) m.used call
  · rw [hnone] at hw
    cases hw
  · obtain rfl : w' = w := Option.some.inj (hw'.symm.trans hw)
    exact ⟨rfl, rfl, htarget⟩

/-- A window that a call presents and does not consume is recorded. -/
theorem mem_used_of_not_consumes {used : Finset (ℕ × String)} {code : ℕ → String} {w : ℕ}
    (hnone : TotpManager.consumes code used call = none) (htarget : call.target code = some w) :
    (w, code (w * totpStep)) ∈ used := by
  by_contra hnew
  have hverify : (TotpManager.verify code used call).1 = true := by
    rw [TotpManager.verify, htarget]
    simp [TotpManager.tryRecordUse, hnew]
  rw [TotpManager.consumes, if_pos hverify, htarget] at hnone
  cases hnone

/-- A sound manager keeps the windows single-use if and only if it is aware. -/
theorem Manager.Sound.singleUse_iff (h : m.Sound generate accepted t) (ht : t ≤ call.window)
    (hsingle : (accepted.map fun a => (a.secret, a.window)).Nodup) :
    (((m.check generate call).2.toList ++ accepted).map fun a => (a.secret, a.window)).Nodup ↔
      m.Aware generate accepted call := by
  cases hcheck : (m.check generate call).2 with
  | none =>
    refine iff_of_true hsingle fun a ha hsecret htarget => ?_
    rw [Manager.check_accepted, Option.map_eq_none_iff] at hcheck
    have hmine := h.known _ (mem_used_of_not_consumes hcheck htarget)
    have heq := List.inj_on_of_nodup_map hsingle ha hmine (by simp [hsecret])
    rw [heq]
  | some a =>
    obtain ⟨hid, hsecret, htarget⟩ := manager_of_check (a := a) hcheck
    have hnew : ∀ b ∈ accepted, b.manager = m.id → b.window ≠ a.window := by
      intro b hb hbid hwindow
      obtain ⟨-, hspent⟩ := h.recorded b hb hbid
      obtain ⟨w, hw, rfl⟩ := Manager.mem_check.1 hcheck
      exact hspent.not_consumes ht (by rw [hwindow]; exact hw)
    rw [Option.toList_some, List.singleton_append, List.map_cons, List.nodup_cons]
    constructor
    · rintro ⟨hmem, -⟩ b hb hbsecret hbtarget
      refine absurd (List.mem_map.2 ⟨b, hb, ?_⟩) hmem
      rw [htarget] at hbtarget
      rw [hbsecret, hsecret, Option.some.inj hbtarget]
    · intro haware
      refine ⟨fun hmem => ?_, hsingle⟩
      obtain ⟨b, hb, heq⟩ := List.mem_map.1 hmem
      obtain ⟨hbsecret, hbwindow⟩ := Prod.mk.inj heq
      refine hnew b hb (haware b hb (hbsecret.trans hsecret) ?_) hbwindow
      rw [hbwindow, htarget]

/-! ## The handlers -/

/-- The managers in use are sound and distinct objects. -/
structure Inv (generate : String → ℕ → String) (t : ℤ) (s : SetupState) : Prop where
  pending : ∀ m ∈ s.pending, m.Sound generate s.accepted t ∧ m.id < s.managers
  totp : ∀ m ∈ s.totp, m.Sound generate s.accepted t ∧ m.id < s.managers
  distinct : ∀ m ∈ s.pending, ∀ m' ∈ s.totp, m.id ≠ m'.id
  below : ∀ a ∈ s.accepted, a.manager < s.managers

theorem inv_start (pending totp : Option String) (t : ℤ) :
    Inv generate t (SetupState.start pending totp) := by
  have hnew : ∀ id secret, (⟨id, secret, ∅⟩ : Manager).Sound generate [] t := by
    intro id secret
    exact ⟨fun a ha => by simp at ha, fun e he => by simp at he⟩
  constructor
  · intro m hm
    obtain ⟨secret, -, rfl⟩ := Option.map_eq_some_iff.1 hm
    exact ⟨hnew 0 secret, Nat.two_pos⟩
  · intro m hm
    obtain ⟨secret, -, rfl⟩ := Option.map_eq_some_iff.1 hm
    exact ⟨hnew 1 secret, Nat.one_lt_two⟩
  · intro m hm m' hm'
    obtain ⟨_, -, rfl⟩ := Option.map_eq_some_iff.1 hm
    obtain ⟨_, -, rfl⟩ := Option.map_eq_some_iff.1 hm'
    exact Nat.zero_ne_one
  · intro a ha
    cases ha

theorem Inv.mono {s : SetupState} (h : Inv generate t s) {t' : ℤ} (ht : t ≤ t') :
    Inv generate t' s where
  pending m hm := (h.pending m hm).imp_left fun hs => hs.mono ht
  totp m hm := (h.totp m hm).imp_left fun hs => hs.mono ht
  distinct := h.distinct
  below := h.below

theorem accepted_suffix_step (s : SetupState) (e : Event) :
    s.accepted <:+ (s.step generate e).accepted := by
  cases e with
  | setupVerify call =>
    dsimp only [SetupState.step]
    cases s.pending with
    | none => exact List.suffix_refl _
    | some m => exact List.suffix_append _ _
  | proceed i =>
    dsimp only [SetupState.step]
    rcases s.underWay[i]? with _ | ⟨secret | _⟩ <;> exact List.suffix_refl _
  | login call =>
    dsimp only [SetupState.step]
    cases s.totp with
    | none => exact List.suffix_refl _
    | some m => exact List.suffix_append _ _

/-- The time after an event: a check of a code tells it. -/
def Event.timeFrom (e : Event) (t : ℤ) : ℤ := (e.call.map Call.window).getD t

theorem Inv.step {s : SetupState} (h : Inv generate t s) {e : Event}
    (ht : ∀ call ∈ e.call, t ≤ call.window) :
    Inv generate (e.timeFrom t) (s.step generate e) := by
  have hbelow : ∀ {m : Manager} {call : Call}, m.id < s.managers →
      ∀ a ∈ (m.check generate call).2.toList ++ s.accepted, a.manager < s.managers := by
    intro m call hm a ha
    rcases List.mem_append.1 ha with ha | ha
    · rw [(manager_of_check (Option.mem_toList.1 ha)).1]
      exact hm
    · exact h.below a ha
  -- what one manager accepts leaves another one sound
  have hother : ∀ {m m' : Manager} {call : Call}, t ≤ call.window → m.id ≠ m'.id →
      m'.Sound generate s.accepted t →
        m'.Sound generate ((m.check generate call).2.toList ++ s.accepted) call.window := by
    intro m m' call htcall hne hm'
    refine (hm'.mono htcall).other fun a ha => ?_
    rw [(manager_of_check (Option.mem_toList.1 ha)).1]
    exact hne
  cases e with
  | setupVerify call =>
    have htcall := ht call rfl
    dsimp only [SetupState.step]
    cases hm : s.pending with
    | none => exact h.mono htcall
    | some m =>
      obtain ⟨hsound, hid⟩ := h.pending m hm
      have hchecked := hsound.check htcall
      have hchecked_id : (m.check generate call).1.id < s.managers := by rwa [Manager.check_id]
      refine ⟨fun m' hm' => ?_, fun m' hm' => ?_, fun m' hm' m'' hm'' => ?_, hbelow hid⟩
      · obtain rfl := Option.some.inj hm'
        exact ⟨hchecked, hchecked_id⟩
      · obtain ⟨hsound', hid'⟩ := h.totp m' hm'
        exact ⟨hother htcall (h.distinct m hm m' hm') hsound', hid'⟩
      · obtain rfl := Option.some.inj hm'
        rw [Manager.check_id]
        exact h.distinct m hm m'' hm''
  | proceed i =>
    dsimp only [SetupState.step]
    rcases s.underWay[i]? with _ | ⟨secret | _⟩
    · exact h
    · refine ⟨fun m hm => ?_, fun m hm => ?_, fun m hm m' hm' => ?_,
        fun a ha => Nat.lt_succ_of_lt (h.below a ha)⟩
      · obtain ⟨hsound, hid⟩ := h.pending m hm
        exact ⟨hsound, Nat.lt_succ_of_lt hid⟩
      · obtain rfl := Option.some.inj hm
        refine ⟨⟨fun a ha hid => ?_, fun e he => by simp at he⟩, Nat.lt_succ_self _⟩
        exact absurd hid (Nat.ne_of_lt (h.below a ha))
      · obtain rfl := Option.some.inj hm'
        exact Nat.ne_of_lt (h.pending m hm).2
    · exact ⟨fun m hm => (nomatch hm), h.totp, fun m hm => (nomatch hm), h.below⟩
  | login call =>
    have htcall := ht call rfl
    dsimp only [SetupState.step]
    cases hm : s.totp with
    | none => exact h.mono htcall
    | some m =>
      obtain ⟨hsound, hid⟩ := h.totp m hm
      have hchecked := hsound.check htcall
      have hchecked_id : (m.check generate call).1.id < s.managers := by rwa [Manager.check_id]
      refine ⟨fun m' hm' => ?_, fun m' hm' => ?_, fun m' hm' m'' hm'' => ?_, hbelow hid⟩
      · obtain ⟨hsound', hid'⟩ := h.pending m' hm'
        exact ⟨hother htcall (h.distinct m' hm' m hm).symm hsound', hid'⟩
      · obtain rfl := Option.some.inj hm'
        exact ⟨hchecked, hchecked_id⟩
      · obtain rfl := Option.some.inj hm''
        rw [Manager.check_id]
        exact h.distinct m' hm' m hm

/-- A step keeps the windows single-use if and only if its manager is aware. -/
theorem Inv.singleUse_step_iff {s : SetupState} (h : Inv generate t s) {e : Event}
    (ht : ∀ call ∈ e.call, t ≤ call.window) (hsingle : s.SingleUse) :
    (s.step generate e).SingleUse ↔ s.Aware generate e := by
  cases e with
  | setupVerify call =>
    dsimp only [SetupState.step, SetupState.Aware]
    cases hm : s.pending with
    | none => exact iff_of_true hsingle fun m hm => (nomatch hm)
    | some m =>
      have hiff := (h.pending m hm).1.singleUse_iff (ht call rfl) hsingle
      exact hiff.trans ⟨fun haware m' hm' => by obtain rfl := Option.some.inj hm'; exact haware,
        fun haware => haware m rfl⟩
  | proceed i =>
    refine iff_of_true ?_ trivial
    dsimp only [SetupState.step]
    rcases s.underWay[i]? with _ | ⟨secret | _⟩ <;> exact hsingle
  | login call =>
    dsimp only [SetupState.step, SetupState.Aware]
    cases hm : s.totp with
    | none => exact iff_of_true hsingle fun m hm => (nomatch hm)
    | some m =>
      have hiff := (h.totp m hm).1.singleUse_iff (ht call rfl) hsingle
      exact hiff.trans ⟨fun haware m' hm' => by obtain rfl := Option.some.inj hm'; exact haware,
        fun haware => haware m rfl⟩

/-- What was accepted stays accepted. -/
theorem accepted_suffix (s : SetupState) (events : List Event) :
    s.accepted <:+ (s.run generate events).accepted := by
  induction events generalizing s with
  | nil => exact List.suffix_refl _
  | cons e events ih => exact (accepted_suffix_step s e).trans (ih _)

theorem Inv.singleUse_run_iff {s : SetupState} (h : Inv generate t s) (hsingle : s.SingleUse)
    {events : List Event} (ht : ∀ call ∈ events.filterMap Event.call, t ≤ call.window)
    (hsorted : (events.filterMap Event.call).Pairwise fun a b => a.now ≤ b.now) :
    (s.run generate events).SingleUse ↔ AllAware generate s events := by
  induction events generalizing s t with
  | nil => exact iff_of_true hsingle trivial
  | cons e events ih =>
    have hte : ∀ call ∈ e.call, t ≤ call.window := by
      intro call hcall
      exact ht call (List.mem_filterMap.2 ⟨e, List.mem_cons_self, hcall⟩)
    have hlater : ∀ call ∈ events.filterMap Event.call, e.timeFrom t ≤ call.window := by
      intro call hcall
      cases he : e.call with
      | none =>
        rw [Event.timeFrom, he]
        refine ht call ?_
        rwa [List.filterMap_cons_none he]
      | some now =>
        rw [Event.timeFrom, he]
        rw [List.filterMap_cons_some he, List.pairwise_cons] at hsorted
        exact TotpManager.window_le (hsorted.1 call hcall)
    have hsorted' : (events.filterMap Event.call).Pairwise fun a b => a.now ≤ b.now := by
      cases he : e.call with
      | none => rwa [List.filterMap_cons_none he] at hsorted
      | some now =>
        rw [List.filterMap_cons_some he] at hsorted
        exact hsorted.of_cons
    by_cases hstep : (s.step generate e).SingleUse
    · have haware := (h.singleUse_step_iff hte hsingle).1 hstep
      exact (ih (h.step hte) hstep hlater hsorted').trans ⟨fun hall => ⟨haware, hall⟩, And.right⟩
    · refine iff_of_false (fun hrun => hstep ?_) fun hall => hstep ?_
      · exact hrun.sublist ((accepted_suffix _ events).sublist.map _)
      · exact (h.singleUse_step_iff hte hsingle).2 hall.1

/-- **Single use across setup and login**: in every run no window of a secret is accepted twice,
    if and only if each code is presented to a manager that knows of its use. -/
theorem single_use_iff (generate : String → ℕ → String) (pending totp : Option String)
    {events : List Event}
    (hsorted : (events.filterMap Event.call).Pairwise fun a b => a.now ≤ b.now) :
    ((SetupState.start pending totp).run generate events).SingleUse ↔
      AllAware generate (SetupState.start pending totp) events := by
  have hlow : ∃ t : ℤ, ∀ call ∈ events.filterMap Event.call, t ≤ call.window := by
    cases hcalls : events.filterMap Event.call with
    | nil => exact ⟨0, fun call hcall => (nomatch hcall)⟩
    | cons first calls =>
      refine ⟨first.window, fun call hcall => ?_⟩
      rw [hcalls, List.pairwise_cons] at hsorted
      rcases List.mem_cons.1 hcall with rfl | hcall
      · exact le_refl _
      · exact TotpManager.window_le (hsorted.1 call hcall)
  obtain ⟨t, ht⟩ := hlow
  exact (inv_start pending totp t).singleUse_run_iff List.nodup_nil ht hsorted

/-- A setup and a login with the same code. -/
def setupThenLogin : List Event :=
  [.setupVerify ⟨"123456", 60⟩, .proceed 0, .proceed 0, .login ⟨"123456", 61⟩]

theorem not_single_use_handOff :
    ¬ ((SetupState.start (some "SECRET") none).run (fun _ _ => "123456")
      setupThenLogin).SingleUse := by
  unfold SetupState.SingleUse
  decide +kernel

theorem single_use_iff_handOff :
    ((SetupState.start (some "SECRET") none).run (fun _ _ => "123456")
        setupThenLogin).SingleUse ↔
      AllAware (fun _ _ => "123456") (SetupState.start (some "SECRET") none) setupThenLogin :=
  single_use_iff _ _ _ (by decide)

end Nexterm.Web.Setup
