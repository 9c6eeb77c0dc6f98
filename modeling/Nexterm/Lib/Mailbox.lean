/-
  A worker with a bounded mailbox.

  * `Mailbox`: the accepted messages that wait, the one that is being handled and the state of the
    worker; as history variables, all accepted messages and how each one was handled.
  * `trySend`, `recv`, `finish`: the steps of the senders and of the worker, in any order.
  * `Ordered`: every accepted message is handled once, in the order of acceptance, and the state of
    the worker is what comes of handling them one after the other.
  * `drained`: as long as nothing is sent, the worker gets through its mailbox.
-/
import Mathlib.Data.List.Basic
import Mathlib.Algebra.Order.Group.Nat

/-- A worker that handles messages of type `μ` in a state of type `σ`; how a message is handled
    also depends on a choice of type `ρ`, such as how long it takes. -/
structure Mailbox (μ σ ρ : Type) where
  queue : List μ
  hand : Option μ
  state : σ
  accepted : List μ
  handled : List (μ × ρ)

namespace Mailbox

variable {μ σ ρ : Type} (capacity : ℕ) (handle : σ → μ → ρ → σ)

/-- Nothing was sent yet. -/
def new (start : σ) : Mailbox μ σ ρ := ⟨[], none, start, [], []⟩

/-- A message is accepted. -/
def accept (b : Mailbox μ σ ρ) (m : μ) : Mailbox μ σ ρ :=
  { b with queue := b.queue ++ [m], accepted := b.accepted ++ [m] }

/-- A message is accepted if there is room for it, and dropped otherwise. -/
def trySend (b : Mailbox μ σ ρ) (m : μ) : Mailbox μ σ ρ :=
  if b.queue.length < capacity then b.accept m else b

/-- The worker takes the next message, unless it has one. -/
def recv (b : Mailbox μ σ ρ) : Mailbox μ σ ρ :=
  match b.hand, b.queue with
  | none, m :: queue => { b with queue := queue, hand := some m }
  | _, _ => b

/-- The worker is done with its message. -/
def finish (b : Mailbox μ σ ρ) (r : ρ) : Mailbox μ σ ρ :=
  match b.hand with
  | some m =>
    { b with hand := none, state := handle b.state m r, handled := b.handled ++ [(m, r)] }
  | none => b

/-- What comes of handling messages one after the other. -/
def outcome (start : σ) (handled : List (μ × ρ)) : σ :=
  handled.foldl (fun s x => handle s x.1 x.2) start

/-- How many messages the worker has before it. -/
def pending (b : Mailbox μ σ ρ) : ℕ := b.hand.toList.length + b.queue.length

/-- The mailbox keeps all messages and their order. -/
structure Ordered (start : σ) (b : Mailbox μ σ ρ) : Prop where
  accepted : b.handled.map (·.1) ++ b.hand.toList ++ b.queue = b.accepted
  bounded : b.queue.length ≤ capacity
  state : b.state = outcome handle start b.handled

variable {capacity handle} {start : σ} {b : Mailbox μ σ ρ}

theorem outcome_append (start : σ) (xs ys : List (μ × ρ)) :
    outcome handle start (xs ++ ys) = outcome handle (outcome handle start xs) ys :=
  List.foldl_append

theorem outcome_concat (start : σ) (xs : List (μ × ρ)) (m : μ) (r : ρ) :
    outcome handle start (xs ++ [(m, r)]) = handle (outcome handle start xs) m r :=
  outcome_append start xs _

theorem ordered_new : (new start : Mailbox μ σ ρ).Ordered capacity handle start :=
  ⟨rfl, Nat.zero_le _, rfl⟩

/-- A message is accepted at the end, or it is dropped. -/
theorem trySend_cases (b : Mailbox μ σ ρ) (m : μ) :
    (b.queue.length < capacity ∧ b.trySend capacity m = b.accept m) ∨
    (capacity ≤ b.queue.length ∧ b.trySend capacity m = b) := by
  unfold trySend
  split_ifs with h
  · exact .inl ⟨h, rfl⟩
  · exact .inr ⟨not_lt.1 h, rfl⟩

theorem recv_cases (b : Mailbox μ σ ρ) :
    (∃ m queue, b.hand = none ∧ b.queue = m :: queue ∧
      b.recv = { b with queue := queue, hand := some m }) ∨
    (b.recv = b ∧ (b.hand = none → b.queue = [])) := by
  unfold recv
  rcases hhand : b.hand with _ | m
  · rcases hqueue : b.queue with _ | ⟨m, queue⟩
    · exact .inr ⟨rfl, fun _ => rfl⟩
    · exact .inl ⟨m, queue, rfl, rfl, rfl⟩
  · exact .inr ⟨rfl, nofun⟩

theorem finish_cases (b : Mailbox μ σ ρ) (r : ρ) :
    (∃ m, b.hand = some m ∧ b.finish handle r =
      { b with hand := none, state := handle b.state m r, handled := b.handled ++ [(m, r)] }) ∨
    (b.hand = none ∧ b.finish handle r = b) := by
  unfold finish
  rcases hhand : b.hand with _ | m
  · exact .inr ⟨rfl, rfl⟩
  · exact .inl ⟨m, rfl, rfl⟩

theorem handled_trySend (b : Mailbox μ σ ρ) (m : μ) : (b.trySend capacity m).handled = b.handled := by
  rcases trySend_cases b m with ⟨-, hsend⟩ | ⟨-, hsend⟩ <;> rw [hsend]
  rfl

theorem recv_frame (b : Mailbox μ σ ρ) :
    b.recv.handled = b.handled ∧ b.recv.accepted = b.accepted ∧ b.recv.state = b.state := by
  rcases recv_cases b with ⟨m, queue, -, -, hrecv⟩ | ⟨hrecv, -⟩ <;> rw [hrecv] <;> exact ⟨rfl, rfl, rfl⟩

theorem finish_frame (b : Mailbox μ σ ρ) (r : ρ) :
    b.handled <+: (b.finish handle r).handled ∧ (b.finish handle r).accepted = b.accepted := by
  rcases finish_cases b r with ⟨m, -, hfinish⟩ | ⟨-, hfinish⟩
  · rw [hfinish]
    exact ⟨List.prefix_append _ _, rfl⟩
  · rw [hfinish]
    exact ⟨List.prefix_refl _, rfl⟩

theorem Ordered.trySend (h : b.Ordered capacity handle start) (m : μ) :
    (b.trySend capacity m).Ordered capacity handle start := by
  rcases trySend_cases b m with ⟨hroom, hsend⟩ | ⟨-, hsend⟩
  · rw [hsend]
    refine ⟨?_, ?_, h.state⟩
    · show b.handled.map (·.1) ++ b.hand.toList ++ (b.queue ++ [m]) = b.accepted ++ [m]
      rw [← h.accepted, List.append_assoc _ b.queue]
    · show (b.queue ++ [m]).length ≤ capacity
      rw [List.length_append]
      exact hroom
  · rw [hsend]
    exact h

theorem Ordered.recv (h : b.Ordered capacity handle start) :
    b.recv.Ordered capacity handle start := by
  rcases recv_cases b with ⟨m, queue, hhand, hqueue, hrecv⟩ | ⟨hrecv, -⟩
  · have hacc := h.accepted
    have hle := h.bounded
    rw [hhand, hqueue] at hacc
    rw [hqueue, List.length_cons] at hle
    rw [hrecv]
    refine ⟨?_, Nat.le_of_succ_le hle, h.state⟩
    rw [← hacc]
    simp
  · rw [hrecv]
    exact h

theorem Ordered.finish (h : b.Ordered capacity handle start) (r : ρ) :
    (b.finish handle r).Ordered capacity handle start := by
  rcases finish_cases b r with ⟨m, hhand, hfinish⟩ | ⟨-, hfinish⟩
  · have hacc := h.accepted
    rw [hhand] at hacc
    rw [hfinish]
    refine ⟨?_, h.bounded, ?_⟩
    · rw [← hacc]
      simp
    · rw [h.state, outcome_concat]
  · rw [hfinish]
    exact h

/-- The accepted messages that were not handled are still there. -/
theorem Ordered.handled_prefix (h : b.Ordered capacity handle start) :
    b.handled.map (·.1) <+: b.accepted :=
  ⟨b.hand.toList ++ b.queue, by rw [← h.accepted, List.append_assoc]⟩

variable (handle) in
/-- The worker takes a message, unless it has one, and is done with it. -/
def turn (b : Mailbox μ σ ρ) (r : ρ) : Mailbox μ σ ρ := b.recv.finish handle r

theorem turn_spec (b : Mailbox μ σ ρ) (r : ρ) :
    (b.turn handle r).pending = b.pending - 1 ∧ (b.turn handle r).accepted = b.accepted := by
  unfold turn
  rcases recv_cases b with ⟨m, queue, hhand, hqueue, hrecv⟩ | ⟨hrecv, hempty⟩
  · rw [hrecv]
    refine ⟨?_, rfl⟩
    simp [finish, pending, hhand, hqueue]
  · rw [hrecv]
    rcases finish_cases b r with ⟨m, hhand, hfinish⟩ | ⟨hhand, hfinish⟩
    · rw [hfinish]
      refine ⟨?_, rfl⟩
      simp [pending, hhand]
    · rw [hfinish]
      refine ⟨?_, rfl⟩
      simp [pending, hhand, hempty hhand]

theorem Ordered.turn (h : b.Ordered capacity handle start) (r : ρ) :
    (b.turn handle r).Ordered capacity handle start := h.recv.finish r

/-- **As long as nothing is sent**, the worker gets through its mailbox, however it handles each
    message. -/
theorem drained (h : b.Ordered capacity handle start) {rs : List ρ} (hrs : b.pending ≤ rs.length) :
    (rs.foldl (Mailbox.turn handle) b).Ordered capacity handle start ∧
      (rs.foldl (Mailbox.turn handle) b).handled.map (·.1) = b.accepted := by
  induction rs generalizing b with
  | nil =>
    refine ⟨h, ?_⟩
    have hempty : b.hand.toList = [] ∧ b.queue = [] := by
      unfold pending at hrs
      rw [List.length_nil] at hrs
      exact ⟨List.eq_nil_of_length_eq_zero (by omega), List.eq_nil_of_length_eq_zero (by omega)⟩
    have hacc := h.accepted
    rw [hempty.1, hempty.2, List.append_nil, List.append_nil] at hacc
    exact hacc
  | cons r rs ih =>
    obtain ⟨hpending, hacc⟩ := @turn_spec _ _ _ handle b r
    rw [List.length_cons] at hrs
    rw [List.foldl_cons, ← hacc]
    exact ih (h.turn r) (by omega)

end Mailbox
