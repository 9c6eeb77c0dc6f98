/-
  Clients that watch a shared state through the answers to their own requests.

  A connection handles one request at a time: it changes the state under a lock and leaves tasks
  behind, each of which looks at the state once more (or not at all) and puts messages into the
  queue of this connection.  The client takes them out in order.

  * `Server`, `step`: the system, with any number of connections.
  * `View`: a part of the state that messages carry and clients keep.
  * `Settles`: however the system is drained, what a client has been told is what the state has.
    `settles_iff`: this is a property of what is under way.
  * `Covered`: a request that keeps this, `settles_run`; while no handler is at work, only these do,
    `covered_of_settles`.
-/
import Mathlib.Algebra.GroupWithZero.Nat
import Nexterm.Lib.Runs

namespace Watch

/-- A server: a request changes the state and leaves tasks, which send messages. -/
structure Server (σ ρ τ μ κ : Type) where
  lock : σ → ρ → σ × List τ
  perform : σ → τ → List μ
  /-- What a new connection has to do. -/
  greeting : List τ
  blank : κ
  apply : κ → μ → κ

/-- A connection: what its handler has still to do, its messages and its client. -/
structure Conn (τ μ κ : Type) where
  todo : List τ
  queue : List μ
  client : κ

/-- The state and the connections. -/
structure State (σ τ μ κ : Type) where
  shared : σ
  conns : List (Conn τ μ κ)

/-- What can happen next, at which connection. -/
inductive Op (ρ : Type)
  | attach
  | detach (i : ℕ)
  | request (i : ℕ) (r : ρ)
  | proceed (i : ℕ)
  | receive (i : ℕ)

/-- The operations that drain the system. -/
def Op.Quiet {ρ : Type} : Op ρ → Prop
  | .proceed _ | .receive _ => True
  | .attach | .detach _ | .request _ _ => False

variable {σ ρ τ μ κ : Type}

/-! ## The system -/

namespace Conn

variable (S : Server σ ρ τ μ κ) (s : σ) (c : Conn τ μ κ)

/-- The handler performs its next task. -/
def proceed : Conn τ μ κ :=
  match c.todo with
  | [] => c
  | t :: ts => { c with todo := ts, queue := c.queue ++ S.perform s t }

/-- The client takes the next message. -/
def receive : Conn τ μ κ :=
  match c.queue with
  | [] => c
  | m :: ms => { c with queue := ms, client := S.apply c.client m }

/-- What the handler is still going to send if the state stays as it is. -/
def sends : List μ := c.todo.flatMap (S.perform s)

/-- Nothing is under way. -/
def Idle : Prop := c.todo = [] ∧ c.queue = []

/-- How many steps it takes to drain the connection. -/
def weight : ℕ := c.todo.length + (c.queue ++ c.sends S s).length

end Conn

namespace Server

variable (S : Server σ ρ τ μ κ)

/-- One step; a request waits until the handler of its connection is free. -/
def step (s : State σ τ μ κ) : Op ρ → State σ τ μ κ
  | .attach => { s with conns := s.conns ++ [⟨S.greeting, [], S.blank⟩] }
  | .detach i => { s with conns := s.conns.eraseIdx i }
  | .request i r =>
    match s.conns[i]? with
    | none => s
    | some c =>
      if c.todo.isEmpty then
        let (shared, todo) := S.lock s.shared r
        ⟨shared, s.conns.set i { c with todo := todo }⟩
      else s
  | .proceed i =>
    match s.conns[i]? with
    | none => s
    | some c => { s with conns := s.conns.set i (c.proceed S s.shared) }
  | .receive i =>
    match s.conns[i]? with
    | none => s
    | some c => { s with conns := s.conns.set i (c.receive S) }

end Server

/-- Nothing is under way. -/
def State.Drained (s : State σ τ μ κ) : Prop := ∀ c ∈ s.conns, c.Idle

/-! ## Draining -/

section drain

variable {S : Server σ ρ τ μ κ} {s : State σ τ μ κ}

theorem Conn.weight_proceed {sh : σ} {c : Conn τ μ κ} (h : c.todo ≠ []) :
    (c.proceed S sh).weight S sh + 1 = c.weight S sh := by
  obtain ⟨t, ts, ht⟩ := List.exists_cons_of_ne_nil h
  simp only [proceed, weight, sends, ht, List.flatMap_cons, List.length_append, List.length_cons]
  omega

theorem Conn.weight_receive {sh : σ} {c : Conn τ μ κ} (h : c.queue ≠ []) :
    (c.receive S).weight S sh + 1 = c.weight S sh := by
  obtain ⟨m, ms, hm⟩ := List.exists_cons_of_ne_nil h
  simp only [receive, weight, sends, hm, List.length_append, List.length_cons]
  omega

/-- One connection gets lighter. -/
theorem sum_weight_set {sh : σ} {l : List (Conn τ μ κ)} {i : ℕ} {c d : Conn τ μ κ}
    (hi : l[i]? = some c) (h : d.weight S sh + 1 = c.weight S sh) :
    ((l.set i d).map (Conn.weight S sh)).sum < (l.map (Conn.weight S sh)).sum := by
  induction l generalizing i with
  | nil => cases hi
  | cons a l ih =>
    cases i with
    | zero =>
      obtain rfl : a = c := Option.some.inj hi
      simp only [List.set_cons_zero, List.map_cons, List.sum_cons]
      omega
    | succ i =>
      have := ih hi
      simp only [List.set_cons_succ, List.map_cons, List.sum_cons]
      omega

/-- **The system can be drained.** -/
theorem exists_drain (s : State σ τ μ κ) :
    ∃ ops : List (Op ρ), (∀ o ∈ ops, o.Quiet) ∧ (Runs.run S.step s ops).Drained := by
  induction hn : (s.conns.map (Conn.weight S s.shared)).sum using Nat.strongRecOn
    generalizing s with
  | ind n ih =>
  by_cases hidle : s.Drained
  · exact ⟨[], (fun _ h => nomatch h), hidle⟩
  · unfold State.Drained at hidle
    push Not at hidle
    obtain ⟨c, hc, hbusy⟩ := hidle
    obtain ⟨i, hi⟩ := List.mem_iff_getElem?.1 hc
    -- one step of this connection, then the rest by induction
    have hnext : ∃ o : Op ρ, ∃ d, o.Quiet ∧ S.step s o = { s with conns := s.conns.set i d } ∧
        d.weight S s.shared + 1 = c.weight S s.shared := by
      by_cases ht : c.todo = []
      · refine ⟨.receive i, c.receive S, trivial, ?_, Conn.weight_receive fun hq => hbusy ⟨ht, hq⟩⟩
        simp only [Server.step, hi]
      · refine ⟨.proceed i, c.proceed S s.shared, trivial, ?_, Conn.weight_proceed ht⟩
        simp only [Server.step, hi]
    obtain ⟨o, d, ho, hstep, hd⟩ := hnext
    obtain ⟨ops, hquiet, hdrained⟩ := ih _ (hn ▸ sum_weight_set hi hd)
      { s with conns := s.conns.set i d } rfl
    refine ⟨o :: ops, ?_, ?_⟩
    · rintro o' (_ | ⟨_, ho'⟩)
      · exact ho
      · exact hquiet o' ho'
    · show (Runs.run S.step (S.step s o) ops).Drained
      rwa [hstep]

end drain

/-! ## What a list of messages says -/

section after

variable {β : Type} (carried : μ → Option β)

/-- What a client that was told `v` is left with after more messages. -/
def after (v : Option β) (ms : List μ) : Option β := ms.foldl (fun v m => (carried m).or v) v

/-- What the last message that carries the part says. -/
def last (ms : List μ) : Option β := after carried none ms

theorem after_append (v : Option β) (ms ms' : List μ) :
    after carried v (ms ++ ms') = after carried (after carried v ms) ms' := List.foldl_append

theorem after_eq (v : Option β) (ms : List μ) : after carried v ms = (last carried ms).or v := by
  induction ms generalizing v with
  | nil => rfl
  | cons m ms ih =>
    calc after carried v (m :: ms) = (last carried ms).or ((carried m).or v) := ih _
      _ = ((last carried ms).or ((carried m).or none)).or v := by
        rw [Option.or_none, Option.or_assoc]
      _ = (last carried (m :: ms)).or v := by
        rw [← ih]
        rfl

@[simp] theorem last_nil : last carried [] = none := rfl

@[simp] theorem last_cons (m : μ) (ms : List μ) :
    last carried (m :: ms) = (last carried ms).or (carried m) := by
  rw [← after_eq, last, after, List.foldl_cons, Option.or_none]
  rfl

@[simp] theorem last_append (ms ms' : List μ) :
    last carried (ms ++ ms') = (last carried ms').or (last carried ms) := by
  rw [last, after_append, after_eq]
  rfl

end after

/-! ## Views -/

/-- A part of the state.  A message can carry it, and a client keeps the last it was told.  A
    request that is answered with it is answered with the state it leaves behind. -/
structure View (S : Server σ ρ τ μ κ) (β : Type) where
  value : σ → Option β
  carried : μ → Option β
  shown : κ → Option β
  shown_apply : ∀ k m, shown (S.apply k m) = (carried m).or (shown k)
  greeted : ∀ s, ∀ v ∈ after carried (shown S.blank) (S.greeting.flatMap (S.perform s)),
    value s = some v
  Answers : σ → ρ → Prop
  answered : ∀ {s r}, Answers s r → ∃ v, value (S.lock s r).1 = some v ∧
    last carried ((S.lock s r).2.flatMap (S.perform (S.lock s r).1)) = some v
  unanswered : ∀ {s r}, ¬Answers s r →
    last carried ((S.lock s r).2.flatMap (S.perform (S.lock s r).1)) = none

namespace View

variable {S : Server σ ρ τ μ κ} {β : Type} (V : View S β)

/-- What the client has been told or will be told by the messages in its queue. -/
def known (c : Conn τ μ κ) : Option β := after V.carried (V.shown c.client) c.queue

/-- What the handler of a connection is still going to say if the state is `s`. -/
def ahead (s : σ) (c : Conn τ μ κ) : Option β := last V.carried (c.sends S s)

/-- What the client is left with if the state stays `s`. -/
def pending (s : σ) (c : Conn τ μ κ) : Option β := (V.ahead s c).or (V.known c)

/-- Every client will be left with the part as the state has it, or without. -/
def Agreeing (s : State σ τ μ κ) : Prop :=
  ∀ c ∈ s.conns, ∀ v ∈ V.pending s.shared c, V.value s.shared = some v

/-- Every client that has been told the part has it as the state has it. -/
def Agrees (s : State σ τ μ κ) : Prop :=
  ∀ c ∈ s.conns, ∀ v ∈ V.shown c.client, V.value s.shared = some v

/-- However the system is drained, the clients agree with the state. -/
def Settles (s : State σ τ μ κ) : Prop :=
  ∀ ops : List (Op ρ), (∀ o ∈ ops, o.Quiet) → (Runs.run S.step s ops).Drained →
    V.Agrees (Runs.run S.step s ops)

variable {V} {s : State σ τ μ κ}

/-! ### What is under way decides -/

theorem pending_eq (sh : σ) (c : Conn τ μ κ) :
    V.pending sh c = after V.carried (V.shown c.client) (c.queue ++ c.sends S sh) := by
  rw [after_append, after_eq]
  rfl

theorem pending_proceed (sh : σ) (c : Conn τ μ κ) :
    V.pending sh (c.proceed S sh) = V.pending sh c := by
  obtain ⟨todo, queue, client⟩ := c
  cases todo with
  | nil => rfl
  | cons t ts =>
    rw [pending_eq, pending_eq]
    simp only [Conn.proceed, Conn.sends, List.flatMap_cons, List.append_assoc]

theorem pending_receive (sh : σ) (c : Conn τ μ κ) :
    V.pending sh (c.receive S) = V.pending sh c := by
  obtain ⟨todo, queue, client⟩ := c
  cases queue with
  | nil => rfl
  | cons m ms =>
    rw [pending_eq, pending_eq]
    show after _ (V.shown (S.apply client m)) _ = after _ ((V.carried m).or (V.shown client)) _
    rw [V.shown_apply]
    rfl

theorem pending_of_idle {sh : σ} {c : Conn τ μ κ} (h : c.Idle) :
    V.pending sh c = V.shown c.client := by
  obtain ⟨ht, hq⟩ := h
  rw [pending_eq, Conn.sends, ht, hq]
  rfl

/-- Draining does not change what the clients will be left with. -/
theorem agreeing_quiet {o : Op ρ} (ho : o.Quiet) : V.Agreeing (S.step s o) ↔ V.Agreeing s := by
  have hset : ∀ {i : ℕ} {c d : Conn τ μ κ}, s.conns[i]? = some c →
      V.pending s.shared d = V.pending s.shared c →
      (V.Agreeing { s with conns := s.conns.set i d } ↔ V.Agreeing s) := by
    intro i c d hi hd
    obtain ⟨hlt, rfl⟩ := List.getElem?_eq_some_iff.1 hi
    have hmap : (s.conns.set i d).map (V.pending s.shared) = s.conns.map (V.pending s.shared) := by
      rw [List.map_set, hd, ← List.getElem_map (V.pending s.shared), List.set_getElem_self]
      rwa [List.length_map]
    have hall : ∀ l : List (Conn τ μ κ), (∀ p ∈ l.map (V.pending s.shared), ∀ v ∈ p,
        V.value s.shared = some v) ↔ ∀ c ∈ l, ∀ v ∈ V.pending s.shared c,
        V.value s.shared = some v := by
      intro l
      exact List.forall_mem_map
    unfold Agreeing
    rw [← hall, hmap, hall]
  cases o with
  | proceed i =>
    simp only [Server.step]
    cases hi : s.conns[i]? with
    | none => rfl
    | some c => exact hset hi (pending_proceed _ _)
  | receive i =>
    simp only [Server.step]
    cases hi : s.conns[i]? with
    | none => rfl
    | some c => exact hset hi (pending_receive _ _)
  | attach => cases ho
  | detach i => cases ho
  | request i r => cases ho

theorem agreeing_drain {ops : List (Op ρ)} (h : ∀ o ∈ ops, o.Quiet) :
    V.Agreeing (Runs.run S.step s ops) ↔ V.Agreeing s := by
  induction ops generalizing s with
  | nil => rfl
  | cons o ops ih =>
    exact (ih fun o' ho' => h o' (List.mem_cons_of_mem _ ho')).trans
      (agreeing_quiet (h o List.mem_cons_self))

theorem agrees_iff_of_drained (h : s.Drained) : V.Agrees s ↔ V.Agreeing s :=
  forall₂_congr fun c hc => by rw [pending_of_idle (h c hc)]

/-- **Settling** is a property of what the clients have and what is under way. -/
theorem settles_iff : V.Settles s ↔ V.Agreeing s := by
  constructor
  · intro h
    obtain ⟨ops, hquiet, hdrained⟩ := exists_drain s
    exact (agreeing_drain hquiet).1 ((agrees_iff_of_drained hdrained).1 (h ops hquiet hdrained))
  · intro h ops hquiet hdrained
    exact (agrees_iff_of_drained hdrained).2 ((agreeing_drain hquiet).2 h)

/-! ### Requests -/

/-- The client of a connection is not harmed when the state changes from `sh` to `sh'`: nothing
    changes, or it has not been told, or its handler is still going to tell it. -/
def Spared (V : View S β) (sh sh' : σ) (c : Conn τ μ κ) : Prop :=
  (V.value sh' = V.value sh ∧ V.ahead sh' c = V.ahead sh c) ∨ V.pending sh' c = none ∨
    ∃ v, V.value sh' = some v ∧ V.ahead sh' c = some v

/-- **Requests that keep the clients in agreement**: the requester is told, if there is anything
    new to it, and all others are spared. -/
def Covered (V : View S β) (s : State σ τ μ κ) : Op ρ → Prop
  | .request i r => ∀ c, s.conns[i]? = some c → c.todo = [] →
    (V.Answers s.shared r ∨ V.value (S.lock s.shared r).1 = V.value s.shared ∨ V.known c = none) ∧
      ∀ j ≠ i, ∀ d, s.conns[j]? = some d → V.Spared s.shared (S.lock s.shared r).1 d
  | .attach | .detach _ | .proceed _ | .receive _ => True

theorem Spared.agrees {sh sh' : σ} {c : Conn τ μ κ} (h : V.Spared sh sh' c)
    (hc : ∀ v ∈ V.pending sh c, V.value sh = some v) :
    ∀ v ∈ V.pending sh' c, V.value sh' = some v := by
  intro v hv
  rcases h with ⟨hvalue, hahead⟩ | hnone | ⟨u, hu, hahead⟩
  · rw [hvalue]
    refine hc v ?_
    rwa [pending, ← hahead]
  · rw [hnone] at hv
    cases hv
  · rw [pending, hahead] at hv
    obtain rfl : u = v := Option.some.inj hv
    exact hu

/-- What the requester is left with. -/
theorem pending_answer (sh : σ) (r : ρ) (c : Conn τ μ κ) :
    V.pending (S.lock sh r).1 { c with todo := (S.lock sh r).2 } =
      (last V.carried ((S.lock sh r).2.flatMap (S.perform (S.lock sh r).1))).or (V.known c) := rfl

theorem pending_of_todo {sh : σ} {c : Conn τ μ κ} (h : c.todo = []) :
    V.pending sh c = V.known c := by
  rw [pending, ahead, Conn.sends, h]
  rfl

/-- The requester agrees exactly when it is told, or there is nothing new to it. -/
theorem answer_agrees_iff {sh : σ} {r : ρ} {c : Conn τ μ κ} (h : c.todo = [])
    (hc : ∀ v ∈ V.pending sh c, V.value sh = some v) :
    (∀ v ∈ V.pending (S.lock sh r).1 { c with todo := (S.lock sh r).2 },
        V.value (S.lock sh r).1 = some v) ↔
      V.Answers sh r ∨ V.value (S.lock sh r).1 = V.value sh ∨ V.known c = none := by
  rw [pending_of_todo h] at hc
  rw [pending_answer]
  by_cases ha : V.Answers sh r
  · obtain ⟨u, hu, hlast⟩ := V.answered ha
    refine iff_of_true ?_ (Or.inl ha)
    intro v hv
    rw [hlast] at hv
    obtain rfl : u = v := Option.some.inj hv
    exact hu
  · rw [V.unanswered ha, Option.none_or]
    cases hk : V.known c with
    | none => exact iff_of_true (fun v hv => nomatch hv) (Or.inr (Or.inr rfl))
    | some u =>
      have hu := hc u hk
      constructor
      · intro hall
        exact Or.inr (Or.inl ((hall u rfl).trans hu.symm))
      · rintro (h | h | h) v hv
        · exact absurd h ha
        · rw [h, hu, hv]
        · cases h

/-- The state after a request that is handled. -/
theorem step_request {i : ℕ} {r : ρ} {c : Conn τ μ κ} (hi : s.conns[i]? = some c)
    (h : c.todo = []) : S.step s (.request i r) =
      ⟨(S.lock s.shared r).1, s.conns.set i { c with todo := (S.lock s.shared r).2 }⟩ := by
  simp only [Server.step, hi, h, List.isEmpty_nil, if_true]

theorem agreeing_request {i : ℕ} {r : ρ} {c : Conn τ μ κ} (hi : s.conns[i]? = some c)
    (h : c.todo = []) : V.Agreeing (S.step s (.request i r)) ↔
      (∀ v ∈ V.pending (S.lock s.shared r).1 { c with todo := (S.lock s.shared r).2 },
        V.value (S.lock s.shared r).1 = some v) ∧
      ∀ j ≠ i, ∀ d, s.conns[j]? = some d → ∀ v ∈ V.pending (S.lock s.shared r).1 d,
        V.value (S.lock s.shared r).1 = some v := by
  obtain ⟨hlt, -⟩ := List.getElem?_eq_some_iff.1 hi
  rw [step_request hi h]
  constructor
  · intro hall
    refine ⟨hall _ (List.mem_iff_getElem?.2 ⟨i, List.getElem?_set_self hlt⟩), ?_⟩
    intro j hj d hd
    exact hall d (List.mem_iff_getElem?.2 ⟨j, (List.getElem?_set_ne hj.symm).trans hd⟩)
  · rintro ⟨hself, hothers⟩ d hd
    obtain ⟨j, hj⟩ := List.mem_iff_getElem?.1 hd
    by_cases hij : j = i
    · subst hij
      rw [List.getElem?_set_self hlt] at hj
      obtain rfl := Option.some.inj hj
      exact hself
    · exact hothers j hij d ((List.getElem?_set_ne (Ne.symm hij)).symm.trans hj)

theorem agreeing_step {o : Op ρ} (h : V.Agreeing s) (ho : V.Covered s o) :
    V.Agreeing (S.step s o) := by
  cases o with
  | attach =>
    intro c hc
    rcases List.mem_append.1 hc with hc | hc
    · exact h c hc
    · obtain rfl := List.mem_singleton.1 hc
      intro v hv
      rw [pending_eq] at hv
      exact V.greeted _ v hv
  | detach i =>
    intro c hc
    exact h c (List.mem_of_mem_eraseIdx hc)
  | request i r =>
    cases hi : s.conns[i]? with
    | none => rwa [show S.step s (.request i r) = s by simp only [Server.step, hi]]
    | some c =>
      by_cases hfree : c.todo = []
      · obtain ⟨hself, hothers⟩ := ho c hi hfree
        have hmem : ∀ {j : ℕ} {d : Conn τ μ κ}, s.conns[j]? = some d → d ∈ s.conns := fun hd =>
          List.mem_iff_getElem?.2 ⟨_, hd⟩
        refine (agreeing_request hi hfree).2
          ⟨(answer_agrees_iff hfree (h c (hmem hi))).2 hself, ?_⟩
        intro j hj d hd
        exact (hothers j hj d hd).agrees (h d (hmem hd))
      · have hbusy : c.todo.isEmpty = false := by simpa using hfree
        rwa [show S.step s (.request i r) = s by
          simp only [Server.step, hi, hbusy, Bool.false_eq_true, if_false]]
  | proceed i => exact (agreeing_quiet (o := .proceed i) trivial).2 h
  | receive i => exact (agreeing_quiet (o := .receive i) trivial).2 h

/-- **In a run of covered requests the clients agree whenever the system is drained.** -/
theorem settles_run {ops : List (Op ρ)} (h : V.Agreeing s)
    (hops : Runs.Along S.step V.Covered s ops) : Runs.Always S.step V.Settles s ops := by
  have hagreeing : Runs.Always S.step V.Agreeing s ops :=
    Runs.always_of_along (fun _ _ hs ho => agreeing_step hs ho) h hops
  refine hagreeing.imp ?_
  intro s hs
  exact settles_iff.2 hs

/-- While no handler is at work, only covered requests keep the agreement. -/
theorem covered_of_settles {i : ℕ} {r : ρ} (hfree : ∀ c ∈ s.conns, c.todo = []) (h : V.Settles s)
    (hnext : V.Settles (S.step s (.request i r))) : V.Covered s (.request i r) := by
  intro c hi hc
  have hagree := settles_iff.1 h
  have hmem : ∀ {j : ℕ} {d : Conn τ μ κ}, s.conns[j]? = some d → d ∈ s.conns := fun hd =>
    List.mem_iff_getElem?.2 ⟨_, hd⟩
  obtain ⟨hself, hothers⟩ := (agreeing_request hi hc).1 (settles_iff.1 hnext)
  refine ⟨(answer_agrees_iff hc (hagree c (hmem hi))).1 hself, ?_⟩
  intro j hj d hd
  have hidle := hfree d (hmem hd)
  have hnow := hagree d (hmem hd)
  have hthen := hothers j hj d hd
  rw [pending_of_todo hidle] at hnow hthen
  cases hk : V.known d with
  | none => exact Or.inr (Or.inl ((pending_of_todo hidle).trans hk))
  | some u =>
    left
    constructor
    · exact (hthen u hk).trans (hnow u hk).symm
    · rw [ahead, ahead, Conn.sends, Conn.sends, hidle]
      rfl

end View

end Watch
