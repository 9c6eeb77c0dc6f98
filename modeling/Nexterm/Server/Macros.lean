/-
  The Lua hooks and macros of the server (`lua_hooks.rs`, `handle_run_macro` in
  `ipc/file_dispatch.rs`).

  * `MluaCrate`: the functions that a script defines, and what calling them does.
  * `HookEvent`, `callHook`: the events, and what the thread of the hooks does with one.
  * `Macros`: the channel to that thread, and the requests for a macro that wait for their answer.
  * `macro_run`: whatever the order of the steps, what a macro returns is typed into the pane that
    the macro was run for, at most once and never after its time is up.

  The clock is a step of its own, `timeout`: it may come at any time.
-/
import Mathlib.Data.List.Perm.Subperm
import Nexterm.Lib.Mailbox
import Nexterm.Lib.Trails

namespace Nexterm.Server

/-- The crate `mlua`, in an environment `L` that a script has set up. -/
structure MluaCrate (L F ρ : Type) where
  /-- A field of the table `hooks`, if there is such a table and the field is a function. -/
  hooksFunction : L → String → Option F
  /-- A global, if it is a function. -/
  globalFunction : L → String → Option F
  /-- Calls a function with a session and a pane: the environment afterwards, and what it returns
      as far as that is a string; an error is `none`. -/
  call : ρ → L → F → String → Option ℕ → L × Option (Option String)

/-- Hook event kind; the macro request has a channel for its answer. -/
inductive HookEvent
  | paneOpen (session : String) (paneId : ℕ)
  | paneClose (session : String) (paneId : ℕ)
  | sessionStart (session : String)
  | attach (session : String)
  | detach (session : String)
  | runMacro (luaFn session : String) (paneId replyTx : ℕ)
  deriving DecidableEq

/-- The thread of the hooks: its environment, and the answers in the channels. -/
structure HookState (L : Type) where
  lua : L
  replies : List (ℕ × Option String)

namespace HookState

variable {L F ρ : Type} (C : MluaCrate L F ρ)

/-- Calls `hooks.<name>` if it is defined. -/
def fireHook (s : HookState L) (r : ρ) (name session : String) (paneId : Option ℕ) : HookState L :=
  match C.hooksFunction s.lua name with
  | none => s
  | some f => { s with lua := (C.call r s.lua f session paneId).1 }

/-- Calls a global function; an error, or anything but a string, is no answer. -/
def runGlobal (r : ρ) (lua : L) (luaFn session : String) (paneId : ℕ) : L × Option String :=
  match C.globalFunction lua luaFn with
  | none => (lua, none)
  | some f =>
    let (lua, value) := C.call r lua f session (some paneId)
    (lua, value.join)

/-- Calls a Lua hook function, or runs a macro and answers. -/
def callHook (s : HookState L) (event : HookEvent) (r : ρ) : HookState L :=
  match event with
  | .paneOpen session paneId => fireHook C s r "on_pane_open" session (some paneId)
  | .paneClose session paneId => fireHook C s r "on_pane_close" session (some paneId)
  | .sessionStart session => fireHook C s r "on_session_start" session none
  | .attach session => fireHook C s r "on_attach" session none
  | .detach session => fireHook C s r "on_detach" session none
  | .runMacro luaFn session paneId replyTx =>
    let (lua, result) := runGlobal C r s.lua luaFn session paneId
    ⟨lua, s.replies ++ [(replyTx, result)]⟩

end HookState

/-- A request for a macro; the channel for the answer is its own. -/
structure MacroCall where
  luaFn : String
  session : String
  paneId : ℕ
  replyTx : ℕ
  deriving DecidableEq

/-- What is sent to the thread of the hooks. -/
def MacroCall.event (c : MacroCall) : HookEvent := .runMacro c.luaFn c.session c.paneId c.replyTx

/-- The runner, and the requests that wait; as history variables, those whose time was up and what
    was typed. -/
structure Macros (L ρ : Type) where
  mailbox : Mailbox HookEvent (HookState L) ρ
  /-- How many channels for answers there have been. -/
  channels : ℕ
  waiting : List MacroCall
  timedOut : List MacroCall
  typed : List (MacroCall × String)

namespace Macros

variable {L F ρ : Type} (C : MluaCrate L F ρ)

/-- The capacity of the channel to the thread. -/
def capacity : ℕ := 64

/-- The runner of a script. -/
def new (lua : L) : Macros L ρ := ⟨.new ⟨lua, []⟩, 0, [], [], []⟩

/-- A step of the server, of the thread, or of the clock. -/
inductive Op (ρ : Type)
  | paneOpen (session : String) (paneId : ℕ)
  | paneClose (session : String) (paneId : ℕ)
  | sessionStart (session : String)
  | attach (session : String)
  | detach (session : String)
  /-- A client runs a macro in the focused pane of its session. -/
  | runMacro (luaFn session : String) (paneId : ℕ)
  | recv
  | finish (r : ρ)
  /-- A request gives up. -/
  | timeout (c : MacroCall)
  /-- A request gets its answer; `panes` are those of the focused window of a session. -/
  | answer (c : MacroCall) (panes : String → List ℕ)

/-- Fires a hook event; it is dropped if the channel is full. -/
def fire (s : Macros L ρ) (event : HookEvent) : Macros L ρ :=
  { s with mailbox := s.mailbox.trySend capacity event }

/-- Runs a macro: the request waits, unless the channel is full. -/
def handleRunMacro (s : Macros L ρ) (luaFn session : String) (paneId : ℕ) : Macros L ρ :=
  let c : MacroCall := ⟨luaFn, session, paneId, s.channels⟩
  let s := { s with channels := s.channels + 1 }
  if s.mailbox.queue.length < capacity then
    { s with mailbox := s.mailbox.trySend capacity c.event, waiting := s.waiting ++ [c] }
  else s

/-- A request gets its answer, which is typed if its pane is in the focused window. -/
def handleAnswer (s : Macros L ρ) (c : MacroCall) (panes : String → List ℕ) : Macros L ρ :=
  if c ∈ s.waiting then
    match s.mailbox.state.replies.find? fun reply => reply.1 = c.replyTx with
    | none => s
    | some (_, result) =>
      { s with
        waiting := s.waiting.erase c
        typed := s.typed ++ (result.toList.filter fun _ => c.paneId ∈ panes c.session).map (c, ·) }
  else s

def step (s : Macros L ρ) : Op ρ → Macros L ρ
  | .paneOpen session paneId => s.fire (.paneOpen session paneId)
  | .paneClose session paneId => s.fire (.paneClose session paneId)
  | .sessionStart session => s.fire (.sessionStart session)
  | .attach session => s.fire (.attach session)
  | .detach session => s.fire (.detach session)
  | .runMacro luaFn session paneId => s.handleRunMacro luaFn session paneId
  | .recv => { s with mailbox := s.mailbox.recv }
  | .finish r => { s with mailbox := s.mailbox.finish (HookState.callHook C) r }
  | .timeout c =>
    if c ∈ s.waiting then { s with waiting := s.waiting.erase c, timedOut := s.timedOut ++ [c] } else s
  | .answer c panes => s.handleAnswer c panes

end Macros

/-! ## The answers -/

namespace HookState

variable {L F ρ : Type} {C : MluaCrate L F ρ}

/-- The macro was run, after the events before it, and this is its answer. -/
def Answered (C : MluaCrate L F ρ) (start : HookState L) (handled : List (HookEvent × ρ))
    (c : MacroCall) (result : Option String) : Prop :=
  ∃ before r after, handled = before ++ (c.event, r) :: after ∧
    (runGlobal C r (Mailbox.outcome (callHook C) start before).lua c.luaFn c.session c.paneId).2 = result

theorem Answered.concat {start : HookState L} {handled : List (HookEvent × ρ)} {c : MacroCall}
    {result : Option String} (h : Answered C start handled c result) (x : HookEvent × ρ) :
    Answered C start (handled ++ [x]) c result := by
  obtain ⟨before, r, after, rfl, hresult⟩ := h
  exact ⟨before, r, after ++ [x], by simp, hresult⟩

theorem replies_fireHook (s : HookState L) (r : ρ) (name session : String) (paneId : Option ℕ) :
    (fireHook C s r name session paneId).replies = s.replies := by
  unfold fireHook
  split <;> rfl

/-- Only a macro answers. -/
theorem replies_callHook (s : HookState L) (event : HookEvent) (r : ρ) :
    (callHook C s event r).replies = s.replies ∨
    ∃ c : MacroCall, event = c.event ∧ (callHook C s event r).replies =
      s.replies ++ [(c.replyTx, (runGlobal C r s.lua c.luaFn c.session c.paneId).2)] := by
  cases event with
  | runMacro luaFn session paneId replyTx => exact .inr ⟨⟨luaFn, session, paneId, replyTx⟩, rfl, rfl⟩
  | paneOpen session paneId => exact .inl (replies_fireHook s r _ _ _)
  | paneClose session paneId => exact .inl (replies_fireHook s r _ _ _)
  | sessionStart session => exact .inl (replies_fireHook s r _ _ _)
  | attach session => exact .inl (replies_fireHook s r _ _ _)
  | detach session => exact .inl (replies_fireHook s r _ _ _)

/-- Every answer is that of a macro that was run. -/
theorem answered_of_mem (lua : L) (handled : List (HookEvent × ρ)) :
    ∀ reply ∈ (Mailbox.outcome (callHook C) ⟨lua, []⟩ handled).replies,
      ∃ c : MacroCall, c.replyTx = reply.1 ∧ Answered C ⟨lua, []⟩ handled c reply.2 := by
  induction handled using List.reverseRecOn with
  | nil => exact nofun
  | append_singleton handled x ih =>
    obtain ⟨event, r⟩ := x
    rw [Mailbox.outcome_concat]
    intro reply hreply
    have hold : reply ∈ (Mailbox.outcome (callHook C) ⟨lua, []⟩ handled).replies →
        ∃ c : MacroCall, c.replyTx = reply.1 ∧
          Answered C ⟨lua, []⟩ (handled ++ [(event, r)]) c reply.2 := by
      intro hmem
      obtain ⟨c, hc, hanswered⟩ := ih reply hmem
      exact ⟨c, hc, hanswered.concat _⟩
    rcases replies_callHook (C := C) (Mailbox.outcome (callHook C) ⟨lua, []⟩ handled) event r with
      hsame | ⟨c, rfl, hnew⟩
    · exact hold (hsame ▸ hreply)
    · rw [hnew] at hreply
      rcases List.mem_append.1 hreply with hmem | hlast
      · exact hold hmem
      · rw [List.mem_singleton.1 hlast]
        exact ⟨c, rfl, handled, r, [], rfl, rfl⟩

end HookState

/-! ## Runs -/

namespace Macros

variable {L F ρ : Type} {C : MluaCrate L F ρ}

/-- The channel for the answer to an event. -/
def replyTx? : HookEvent → Option ℕ
  | .runMacro _ _ _ replyTx => some replyTx
  | _ => none

/-- All requests that the channel has taken. -/
def calls (s : Macros L ρ) : List MacroCall := s.typed.map (·.1) ++ s.timedOut ++ s.waiting

/-- What is known of the macros after some steps. -/
structure Kept (C : MluaCrate L F ρ) (lua : L) (ops : List (Op ρ)) (s : Macros L ρ) : Prop where
  ordered : s.mailbox.Ordered capacity (HookState.callHook C) ⟨lua, []⟩
  nodup : (s.calls.map (·.replyTx)).Nodup
  nodup_accepted : (s.mailbox.accepted.filterMap replyTx?).Nodup
  lt_channels : ∀ n ∈ s.calls.map (·.replyTx) ++ s.mailbox.accepted.filterMap replyTx?, n < s.channels
  waiting : ∀ c ∈ s.waiting, c.event ∈ s.mailbox.accepted
  requested : ∀ c ∈ s.calls, .runMacro c.luaFn c.session c.paneId ∈ ops
  typed : ∀ x ∈ s.typed, HookState.Answered C ⟨lua, []⟩ s.mailbox.handled x.1 (some x.2)

theorem kept_new (C : MluaCrate L F ρ) (lua : L) : Kept C lua [] (new lua) :=
  ⟨Mailbox.ordered_new, List.nodup_nil, List.nodup_nil, nofun, nofun, nofun, nofun⟩

variable {lua : L} {ops : List (Op ρ)} {s : Macros L ρ}

theorem Kept.later (h : Kept C lua ops s) (op : Op ρ) : Kept C lua (ops ++ [op]) s :=
  ⟨h.ordered, h.nodup, h.nodup_accepted, h.lt_channels, h.waiting,
    fun c hc => List.mem_append_left _ (h.requested c hc), h.typed⟩

/-- A hook fires, which asks for no answer. -/
theorem Kept.fire (h : Kept C lua ops s) {event : HookEvent} (hevent : replyTx? event = none) :
    Kept C lua ops (s.fire event) := by
  unfold Macros.fire
  rcases @Mailbox.trySend_cases _ _ _ capacity s.mailbox event with ⟨-, hsend⟩ | ⟨-, hsend⟩
  · have hsame : (s.mailbox.accept event).accepted.filterMap replyTx? =
        s.mailbox.accepted.filterMap replyTx? := by
      simp [Mailbox.accept, hevent]
    have hordered := h.ordered.trySend event
    rw [hsend] at hordered ⊢
    refine ⟨hordered, h.nodup, ?_, ?_, ?_, h.requested, h.typed⟩
    · rw [hsame]
      exact h.nodup_accepted
    · dsimp only
      rw [hsame]
      exact h.lt_channels
    · exact fun c hc => List.mem_append_left _ (h.waiting c hc)
  · rw [hsend]
    exact h

/-- A macro is requested, over a channel of its own. -/
theorem Kept.runMacro (h : Kept C lua ops s) (luaFn session : String) (paneId : ℕ) :
    Kept C lua (ops ++ [.runMacro luaFn session paneId]) (s.handleRunMacro luaFn session paneId) := by
  let c : MacroCall := ⟨luaFn, session, paneId, s.channels⟩
  have hlater := h.later (.runMacro luaFn session paneId)
  have hlt : ∀ n ∈ s.calls.map (·.replyTx) ++ s.mailbox.accepted.filterMap replyTx?,
      n < s.channels + 1 := fun n hn => (h.lt_channels n hn).trans (Nat.lt_succ_self _)
  by_cases hroom : s.mailbox.queue.length < capacity
  · have heq : s.handleRunMacro luaFn session paneId = { s with
        channels := s.channels + 1
        mailbox := s.mailbox.accept c.event
        waiting := s.waiting ++ [c] } := by
      refine (if_pos hroom).trans ?_
      have haccept : s.mailbox.trySend capacity c.event = s.mailbox.accept c.event := if_pos hroom
      show { s with channels := _, mailbox := s.mailbox.trySend capacity c.event, waiting := _ } = _
      rw [haccept]
    have hordered := h.ordered.trySend c.event
    rw [Mailbox.trySend, if_pos hroom] at hordered
    have haccepted : (s.mailbox.accept c.event).accepted.filterMap replyTx? =
        s.mailbox.accepted.filterMap replyTx? ++ [s.channels] := by
      rw [Mailbox.accept, List.filterMap_append]
      rfl
    have hcalls : (s.typed.map (·.1) ++ s.timedOut ++ (s.waiting ++ [c])).map (·.replyTx) =
        s.calls.map (·.replyTx) ++ [s.channels] := by
      rw [← List.append_assoc, List.map_append]
      rfl
    -- the new channel differs from all others
    have hnew : ∀ {ns : List ℕ}, (∀ n ∈ ns, n < s.channels) → ns.Nodup → (ns ++ [s.channels]).Nodup := by
      intro ns hns hnodup
      refine List.nodup_append.2 ⟨hnodup, by simp, ?_⟩
      intro n hn m hm
      rw [List.mem_singleton.1 hm]
      exact (hns n hn).ne
    rw [heq]
    refine ⟨hordered, ?_, ?_, ?_, ?_, ?_, h.typed⟩
    · exact hcalls ▸ hnew (fun n hn => h.lt_channels n (List.mem_append_left _ hn)) h.nodup
    · exact haccepted ▸ hnew (fun n hn => h.lt_channels n (List.mem_append_right _ hn)) h.nodup_accepted
    · intro n hn
      have hn' : n ∈ s.calls.map (·.replyTx) ++ [s.channels] ++
          (s.mailbox.accepted.filterMap replyTx? ++ [s.channels]) := hcalls ▸ haccepted ▸ hn
      rw [List.mem_append, List.mem_append, List.mem_append, List.mem_singleton] at hn'
      rcases hn' with (hcall | rfl) | haccept | rfl
      · exact hlt n (List.mem_append_left _ hcall)
      · exact Nat.lt_succ_self _
      · exact hlt n (List.mem_append_right _ haccept)
      · exact Nat.lt_succ_self _
    · intro c' hc'
      rcases List.mem_append.1 hc' with hold | hlast
      · exact List.mem_append_left _ (h.waiting c' hold)
      · exact List.mem_append_right _ (List.mem_singleton.2 (congrArg _ (List.mem_singleton.1 hlast)))
    · intro c' hc'
      have hc'' : c' ∈ s.calls ++ [c] := by
        rw [Macros.calls, List.append_assoc _ s.waiting]
        exact hc'
      rcases List.mem_append.1 hc'' with hold | hlast
      · exact hlater.requested c' hold
      · rw [List.mem_singleton.1 hlast]
        exact List.mem_append_right _ (List.mem_singleton_self _)
  · have heq : s.handleRunMacro luaFn session paneId = { s with channels := s.channels + 1 } :=
      if_neg hroom
    rw [heq]
    exact ⟨h.ordered, h.nodup, h.nodup_accepted, hlt, h.waiting, hlater.requested, h.typed⟩

theorem Kept.recv (h : Kept C lua ops s) : Kept C lua ops { s with mailbox := s.mailbox.recv } := by
  obtain ⟨hhandled, haccepted, -⟩ := s.mailbox.recv_frame
  refine ⟨h.ordered.recv, h.nodup, ?_, ?_, ?_, h.requested, ?_⟩
  · rw [haccepted]
    exact h.nodup_accepted
  · dsimp only
    rw [haccepted]
    exact h.lt_channels
  · dsimp only
    rw [haccepted]
    exact h.waiting
  · dsimp only
    rw [hhandled]
    exact h.typed

theorem Kept.finish (h : Kept C lua ops s) (r : ρ) :
    Kept C lua ops { s with mailbox := s.mailbox.finish (HookState.callHook C) r } := by
  obtain ⟨hhandled, haccepted⟩ := @Mailbox.finish_frame _ _ _ (HookState.callHook C) s.mailbox r
  refine ⟨h.ordered.finish r, h.nodup, ?_, ?_, ?_, h.requested, ?_⟩
  · rw [haccepted]
    exact h.nodup_accepted
  · dsimp only
    rw [haccepted]
    exact h.lt_channels
  · dsimp only
    rw [haccepted]
    exact h.waiting
  · intro x hx
    obtain ⟨before, r', after, heq, hresult⟩ := h.typed x hx
    obtain ⟨more, hmore⟩ := hhandled
    exact ⟨before, r', after ++ more, by rw [← hmore, heq, List.append_assoc, List.cons_append], hresult⟩

/-- The requests are the same, in another order, or fewer of them. -/
theorem Kept.calls (h : Kept C lua ops s) {s' : Macros L ρ} (hmailbox : s'.mailbox = s.mailbox)
    (hchannels : s'.channels = s.channels) (hcalls : s'.calls.Subperm s.calls)
    (hwaiting : ∀ c ∈ s'.waiting, c ∈ s.waiting)
    (htyped : ∀ x ∈ s'.typed, HookState.Answered C ⟨lua, []⟩ s.mailbox.handled x.1 (some x.2)) :
    Kept C lua ops s' := by
  obtain ⟨l, hperm, hsub⟩ := hcalls
  have hmem : ∀ {c}, c ∈ s'.calls → c ∈ s.calls := fun hc => hsub.subset (hperm.mem_iff.2 hc)
  refine ⟨hmailbox ▸ h.ordered, ?_, hmailbox ▸ h.nodup_accepted, fun n hn => ?_, fun c hc => ?_,
    fun c hc => h.requested c (hmem hc), hmailbox ▸ htyped⟩
  · exact (hperm.map (·.replyTx)).nodup_iff.1 (h.nodup.sublist (hsub.map (·.replyTx)))
  · rw [hchannels]
    refine h.lt_channels n ?_
    rcases List.mem_append.1 hn with hcall | haccepted
    · obtain ⟨c, hc, rfl⟩ := List.mem_map.1 hcall
      exact List.mem_append_left _ (List.mem_map_of_mem (hmem hc))
    · exact List.mem_append_right _ (hmailbox ▸ haccepted)
  · rw [hmailbox]
    exact h.waiting c (hwaiting c hc)

theorem Kept.timeout (h : Kept C lua ops s) (c : MacroCall) (hc : c ∈ s.waiting) :
    Kept C lua ops { s with waiting := s.waiting.erase c, timedOut := s.timedOut ++ [c] } := by
  refine h.calls rfl rfl ?_ (fun c' hc' => List.mem_of_mem_erase hc') h.typed
  have hperm : (s.typed.map (·.1) ++ (s.timedOut ++ [c]) ++ s.waiting.erase c).Perm s.calls := by
    unfold Macros.calls
    rw [List.append_assoc, List.append_assoc, List.append_assoc]
    exact ((List.perm_cons_erase hc).symm.append_left _).append_left _
  exact hperm.subperm

/-- In a list where an image occurs only once, so does what is mapped to it. -/
theorem eq_of_nodup_filterMap {α β : Type} {f : α → Option β} : ∀ {l : List α} {a b : α} {x : β},
    (l.filterMap f).Nodup → a ∈ l → b ∈ l → f a = some x → f b = some x → a = b
  | y :: l, a, b, x, hnodup, ha, hb, hfa, hfb => by
    have hmem : ∀ {z}, z ∈ l → f z = some x → x ∈ l.filterMap f := fun hz hfz =>
      List.mem_filterMap.2 ⟨_, hz, hfz⟩
    rcases List.mem_cons.1 ha with rfl | ha' <;> rcases List.mem_cons.1 hb with rfl | hb'
    · rfl
    · rw [List.filterMap_cons_some hfa, List.nodup_cons] at hnodup
      exact absurd (hmem hb' hfb) hnodup.1
    · rw [List.filterMap_cons_some hfb, List.nodup_cons] at hnodup
      exact absurd (hmem ha' hfa) hnodup.1
    · refine eq_of_nodup_filterMap (hnodup.sublist ?_) ha' hb' hfa hfb
      exact (List.sublist_cons_self y l).filterMap f

/-- The answer in the channel of a request is its own. -/
theorem Kept.answered (h : Kept C lua ops s) {c : MacroCall} (hc : c ∈ s.waiting)
    {reply : ℕ × Option String} (hreply : reply ∈ s.mailbox.state.replies) (htx : reply.1 = c.replyTx) :
    HookState.Answered C ⟨lua, []⟩ s.mailbox.handled c reply.2 := by
  rw [h.ordered.state] at hreply
  obtain ⟨c', hc', hanswered⟩ := HookState.answered_of_mem lua s.mailbox.handled reply hreply
  have hevent : c'.event ∈ s.mailbox.accepted := by
    obtain ⟨before, r, after, heq, -⟩ := hanswered
    have hmem : c'.event ∈ s.mailbox.handled.map (·.1) := by
      rw [heq]
      simp
    exact h.ordered.handled_prefix.subset hmem
  have heq : c'.event = c.event :=
    eq_of_nodup_filterMap h.nodup_accepted hevent (h.waiting c hc) (x := c.replyTx)
      (congrArg some (hc'.trans htx)) rfl
  obtain rfl : c' = c := by
    cases c
    cases c'
    cases heq
    rfl
  exact hanswered

theorem Kept.answer (h : Kept C lua ops s) (c : MacroCall) (panes : String → List ℕ) :
    Kept C lua ops (s.handleAnswer c panes) := by
  unfold handleAnswer
  split_ifs with hc
  · split
    case h_1 => exact h
    case h_2 replyTx result hfind =>
      have hreply := h.answered hc (List.mem_of_find?_eq_some hfind)
        (by simpa using List.find?_some hfind)
      refine h.calls rfl rfl ?_ (fun c' hc' => List.mem_of_mem_erase hc') ?_
      · -- at most one text is typed
        let texts := result.toList.filter fun _ => c.paneId ∈ panes c.session
        have htexts : ((texts.map (c, ·)).map (·.1)).Sublist [c] := by
          have hsub : texts.Sublist result.toList := List.filter_sublist
          have hone : (result.toList.map fun _ => c).Sublist [c] := by cases result <;> simp
          rw [List.map_map]
          exact (hsub.map _).trans hone
        have hcalls : ((s.typed ++ texts.map (c, ·)).map (·.1) ++ s.timedOut ++ s.waiting.erase c).Perm
            (s.typed.map (·.1) ++ s.timedOut ++ ((texts.map (c, ·)).map (·.1) ++ s.waiting.erase c)) := by
          rw [List.map_append, List.append_assoc, List.append_assoc, List.append_assoc]
          refine List.Perm.append_left _ ?_
          rw [← List.append_assoc, ← List.append_assoc]
          exact List.perm_append_comm.append_right _
        refine hcalls.subperm.trans ?_
        refine ((htexts.append_right _).append_left _).subperm.trans ?_
        exact ((List.perm_cons_erase hc).symm.append_left _).subperm
      · intro x hx
        rcases List.mem_append.1 hx with hold | hnew
        · exact h.typed x hold
        · obtain ⟨text, htext, rfl⟩ := List.mem_map.1 hnew
          rw [← Option.mem_toList.1 (List.mem_of_mem_filter htext)]
          exact hreply
  · exact h

theorem Kept.step (h : Kept C lua ops s) (op : Op ρ) : Kept C lua (ops ++ [op]) (s.step C op) := by
  cases op with
  | paneOpen session paneId => exact (h.fire rfl).later _
  | paneClose session paneId => exact (h.fire rfl).later _
  | sessionStart session => exact (h.fire rfl).later _
  | attach session => exact (h.fire rfl).later _
  | detach session => exact (h.fire rfl).later _
  | runMacro luaFn session paneId => exact h.runMacro luaFn session paneId
  | recv => exact h.recv.later _
  | finish r => exact (h.finish r).later _
  | timeout c =>
    refine Kept.later ?_ _
    show Kept C lua ops (if c ∈ s.waiting then _ else s)
    split_ifs with hc
    · exact h.timeout c hc
    · exact h
  | answer c panes => exact (h.answer c panes).later _

theorem kept_run (C : MluaCrate L F ρ) (lua : L) (ops : List (Op ρ)) :
    Kept C lua ops (Runs.run (Macros.step C) (new lua) ops) := by
  induction ops using List.reverseRecOn with
  | nil => exact kept_new C lua
  | append_singleton ops op ih =>
    rw [Runs.run_concat]
    exact ih.step op

/-- **Hooks and macros.**  Whatever the order of the steps of the server, the thread and the clock:
    the events that the channel takes are handled once and in their order; what is typed is the
    answer to a request, for the function, the session and the pane that it named, in the
    environment that the events before it have left; and no request has two answers typed, or one
    after its time was up. -/
theorem macro_run (C : MluaCrate L F ρ) (lua : L) (ops : List (Op ρ)) :
    let s := Runs.run (Macros.step C) (new lua) ops
    let b := s.mailbox
    b.handled.map (·.1) ++ b.hand.toList ++ b.queue = b.accepted ∧ b.queue.length ≤ capacity ∧
    (∀ x ∈ s.typed, .runMacro x.1.luaFn x.1.session x.1.paneId ∈ ops ∧
      HookState.Answered C ⟨lua, []⟩ b.handled x.1 (some x.2)) ∧
    ((s.typed.map (·.1) ++ s.timedOut ++ s.waiting).map (·.replyTx)).Nodup := by
  intro s b
  have h : Kept C lua ops s := kept_run C lua ops
  refine ⟨h.ordered.accepted, h.ordered.bounded, fun x hx => ⟨?_, h.typed x hx⟩, h.nodup⟩
  refine h.requested x.1 ?_
  exact List.mem_append_left _ (List.mem_append_left _ (List.mem_map_of_mem hx))

end Macros

end Nexterm.Server
