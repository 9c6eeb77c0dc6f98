/-
  The worker that evaluates Lua on a thread of its own (`lua_worker.rs`).

  * `LuaCrate`: the interpreter, with its sandbox and the hook that stops what takes too long.
  * `LuaWorker`: the cache, and the channel of capacity 1 that the worker reads.
  * `evalWidgets`, `reload`: the two requests; `handle`: what the worker does with one.
  * `Shows`: the cache is the result of the last evaluation, in the environment of that time.
  * `worker_spec`: this holds of every reachable state, and no script is lost.

  A request to reload blocks as long as the channel is full: a step that finds it full changes
  nothing, and is tried again.
-/
import Nexterm.Lib.Mailbox
import Nexterm.Lib.Trails

namespace Nexterm.Settings

/-- The crate `mlua`, as the sandbox uses it.  `L` is an environment, and `ρ` is how long things
    take and whether there is enough memory. -/
structure LuaCrate (L ρ : Type) where
  /-- A fresh environment. -/
  sandboxedLua : ρ → Option L
  /-- `load(..).exec()`: the environment afterwards, and whether there was no error. -/
  exec : L → String → L × Bool
  /-- `load(..).eval::<String>()` under a deadline. -/
  eval : ρ → L → String → L × Option String

/-- Message sent to the worker thread. -/
inductive WorkerMessage
  | eval (widgets : List String)
  | reload (newSource : String)
  deriving DecidableEq

/-- What the worker thread holds: its environment, and the cache of the latest result. -/
structure LuaState (L : Type) where
  lua : L
  cache : String

namespace LuaState

variable {L ρ : Type} (C : LuaCrate L ρ)

/-- Evaluates the expressions one after the other; an error gives an empty text. -/
def evalParts (r : ρ) : L → List String → L × List String
  | lua, [] => (lua, [])
  | lua, expr :: exprs =>
    let (lua, value) := C.eval r lua expr
    let (lua, values) := evalParts r lua exprs
    (lua, value.getD "" :: values)

/-- The environment after a reload: a fresh one, or the previous one if the script fails. -/
def reload (r : ρ) (lua : L) (newSource : String) : L :=
  match C.sandboxedLua r with
  | none => lua
  | some fresh =>
    match C.exec fresh newSource with
    | (newLua, true) => newLua
    | (_, false) => lua

/-- What the worker does with a message. -/
def handle (s : LuaState L) (msg : WorkerMessage) (r : ρ) : LuaState L :=
  match msg with
  | .eval widgets =>
    let (lua, parts) := evalParts C r s.lua widgets
    ⟨lua, "  ".intercalate parts⟩
  | .reload newSource => { s with lua := reload C r s.lua newSource }

end LuaState

/-- The worker; there is no thread if the sandbox could not be set up. -/
structure LuaWorker (L ρ : Type) where
  mailbox : Mailbox WorkerMessage (LuaState L) ρ
  alive : Bool

namespace LuaWorker

variable {L ρ : Type} (C : LuaCrate L ρ)

/-- The capacity of the channel. -/
def capacity : ℕ := 1

/-- The environment at the start: that of the script, as far as it ran. -/
def startLua (fresh : L) (script : Option String) : L :=
  script.elim fresh fun source => (C.exec fresh source).1

/-- Starts the worker thread; `script` is what was read from the file, if it could be read, and
    `idle` stands for the environment of a thread that has exited. -/
def new (r : ρ) (script : Option String) (idle : L) : LuaWorker L ρ :=
  match C.sandboxedLua r with
  | some fresh => ⟨.new ⟨startLua C fresh script, ""⟩, true⟩
  | none => ⟨.new ⟨idle, ""⟩, false⟩

/-- A message is sent; the channel of a thread that has exited is closed. -/
def send (w : LuaWorker L ρ) (msg : WorkerMessage) : LuaWorker L ρ :=
  if w.alive then { w with mailbox := w.mailbox.trySend capacity msg } else w

/-- The channel takes a message. -/
def ready (w : LuaWorker L ρ) : Bool := w.alive && decide (w.mailbox.queue.length < capacity)

/-- The latest result. -/
def cache (w : LuaWorker L ρ) : String := w.mailbox.state.cache

/-- Requests an evaluation, and returns the cached result. -/
def evalWidgets (w : LuaWorker L ρ) (widgets : List String) : LuaWorker L ρ × String :=
  (w.send (.eval widgets), w.cache)

/-- Replaces the environment.  `none` is a caller that still waits for the channel. -/
def reload (w : LuaWorker L ρ) (newSource : String) : LuaWorker L ρ × Option Bool :=
  if w.alive then (w.send (.reload newSource), if w.ready then some true else none)
  else (w, some false)

/-- A step of the threads that use the worker, or of its own one. -/
inductive Op (ρ : Type)
  | evalWidgets (widgets : List String)
  | reload (newSource : String)
  | recv
  | finish (r : ρ)

def step (w : LuaWorker L ρ) : Op ρ → LuaWorker L ρ
  | .evalWidgets widgets => (w.evalWidgets widgets).1
  | .reload newSource => (w.reload newSource).1
  | .recv => { w with mailbox := w.mailbox.recv }
  | .finish r => { w with mailbox := w.mailbox.finish (LuaState.handle C) r }

/-- What a step sends, if the channel takes it. -/
def sends (w : LuaWorker L ρ) : Op ρ → Option WorkerMessage
  | .evalWidgets widgets => if w.ready then some (.eval widgets) else none
  | .reload newSource => if w.ready then some (.reload newSource) else none
  | _ => none

end LuaWorker

/-! ## One message after the other -/

namespace LuaState

variable {L ρ : Type} {C : LuaCrate L ρ} {start : LuaState L} {handled : List (WorkerMessage × ρ)}

/-- The environment does not depend on the cache. -/
theorem lua_outcome (lua : L) (cache cache' : String) (handled : List (WorkerMessage × ρ)) :
    (Mailbox.outcome (handle C) ⟨lua, cache⟩ handled).lua =
      (Mailbox.outcome (handle C) ⟨lua, cache'⟩ handled).lua := by
  induction handled generalizing lua cache cache' with
  | nil => rfl
  | cons x handled ih =>
    obtain ⟨msg, r⟩ := x
    show (Mailbox.outcome (handle C) (handle C ⟨lua, cache⟩ msg r) handled).lua =
      (Mailbox.outcome (handle C) (handle C ⟨lua, cache'⟩ msg r) handled).lua
    cases msg <;> exact ih _ _ _

/-- The message asks for a result. -/
def IsEval (x : WorkerMessage × ρ) : Prop := ∃ widgets, x.1 = .eval widgets

/-- The text of an evaluation. -/
def result (C : LuaCrate L ρ) (r : ρ) (lua : L) (widgets : List String) : String :=
  "  ".intercalate (evalParts C r lua widgets).2

/-- The text is the result of the last evaluation, in the environment of that time, or there was
    none. -/
def Shows (C : LuaCrate L ρ) (start : LuaState L) (handled : List (WorkerMessage × ρ)) (text : String) :
    Prop :=
  (text = "" ∧ ∀ x ∈ handled, ¬IsEval x) ∨
  ∃ pre widgets r post, handled = pre ++ (.eval widgets, r) :: post ∧ (∀ x ∈ post, ¬IsEval x) ∧
    text = result C r (Mailbox.outcome (handle C) start pre).lua widgets

theorem shows_outcome (hstart : start.cache = "") (handled : List (WorkerMessage × ρ)) :
    Shows C start handled (Mailbox.outcome (handle C) start handled).cache := by
  induction handled using List.reverseRecOn with
  | nil => exact .inl ⟨hstart, nofun⟩
  | append_singleton handled x ih =>
    obtain ⟨msg, r⟩ := x
    rw [Mailbox.outcome_concat]
    cases msg with
    | eval widgets => exact .inr ⟨handled, widgets, r, [], rfl, nofun, rfl⟩
    | reload newSource =>
      have hnot : ¬IsEval ((.reload newSource, r) : WorkerMessage × ρ) := by
        rintro ⟨widgets, heq⟩
        cases heq
      rcases ih with ⟨hempty, hno⟩ | ⟨pre, widgets, r', post, rfl, hno, htext⟩
      · refine .inl ⟨hempty, fun y hy => ?_⟩
        rcases List.mem_append.1 hy with hy | hy
        · exact hno y hy
        · rw [List.mem_singleton.1 hy]
          exact hnot
      · refine .inr ⟨pre, widgets, r', post ++ [(.reload newSource, r)], by simp, fun y hy => ?_, htext⟩
        rcases List.mem_append.1 hy with hy | hy
        · exact hno y hy
        · rw [List.mem_singleton.1 hy]
          exact hnot

end LuaState

/-! ## Runs -/

namespace LuaWorker

variable {L ρ : Type} {C : LuaCrate L ρ}

/-- What is sent in a run. -/
def sent (C : LuaCrate L ρ) (w : LuaWorker L ρ) (ops : List (Op ρ)) : List WorkerMessage :=
  Runs.outputs (step C) (fun w op => (sends w op).toList) w ops

/-- The worker serves the messages that were sent. -/
structure Serves (C : LuaCrate L ρ) (start : LuaState L) (msgs : List WorkerMessage)
    (w : LuaWorker L ρ) : Prop where
  alive : w.alive = true
  ordered : w.mailbox.Ordered capacity (LuaState.handle C) start
  accepted : w.mailbox.accepted = msgs

theorem Serves.send {start : LuaState L} {msgs : List WorkerMessage} {w : LuaWorker L ρ}
    (h : w.Serves C start msgs) (msg : WorkerMessage) :
    (w.send msg).Serves C start (msgs ++ (if w.ready then some msg else none).toList) := by
  rw [LuaWorker.send, if_pos h.alive, ready, h.alive, Bool.true_and]
  refine ⟨rfl, h.ordered.trySend msg, ?_⟩
  rcases @Mailbox.trySend_cases _ _ _ capacity w.mailbox msg with ⟨hroom, hsend⟩ | ⟨hfull, hsend⟩
  · rw [hsend, decide_eq_true hroom, if_pos rfl, ← h.accepted]
    rfl
  · rw [hsend, decide_eq_false (not_lt.2 hfull), h.accepted]
    simp

theorem Serves.step {start : LuaState L} {msgs : List WorkerMessage} {w : LuaWorker L ρ}
    (h : w.Serves C start msgs) (op : Op ρ) :
    (w.step C op).Serves C start (msgs ++ (w.sends op).toList) := by
  cases op with
  | evalWidgets widgets => exact h.send _
  | reload newSource =>
    show Serves C start _ (w.reload newSource).1
    rw [LuaWorker.reload, if_pos h.alive]
    exact h.send _
  | recv =>
    refine ⟨h.alive, h.ordered.recv, ?_⟩
    rw [show sends w .recv = (none : Option WorkerMessage) from rfl, Option.toList_none, List.append_nil]
    exact w.mailbox.recv_frame.2.1.trans h.accepted
  | finish r =>
    refine ⟨h.alive, h.ordered.finish r, ?_⟩
    rw [show sends w (.finish r) = (none : Option WorkerMessage) from rfl, Option.toList_none,
      List.append_nil]
    exact (w.mailbox.finish_frame r).2.trans h.accepted

variable (C) in
theorem serves_new {r : ρ} {fresh : L} (hfresh : C.sandboxedLua r = some fresh) (script : Option String)
    (idle : L) : (new C r script idle).Serves C ⟨startLua C fresh script, ""⟩ [] := by
  rw [new, hfresh]
  exact ⟨rfl, Mailbox.ordered_new, rfl⟩

theorem serves_run {start : LuaState L} {w : LuaWorker L ρ} (h : w.Serves C start []) (ops : List (Op ρ)) :
    (Runs.run (step C) w ops).Serves C start (sent C w ops) := by
  refine @Runs.run_trail _ _ _ (step C) _ (fun _ w msgs => Serves C start msgs w) w ops h ?_
  intro pre op _ ih
  exact ih.step op

/-- **The worker.**  In every run of the threads, the requests that the channel takes are served
    once and in their order, and at most one waits; the cache is the result of the last
    evaluation, in the environment of that time; a script that was loaded leads to the environment
    of a worker that is started with it; and if nothing more is sent, the worker gets through. -/
theorem worker_run (C : LuaCrate L ρ) {r : ρ} {fresh : L} (hfresh : C.sandboxedLua r = some fresh)
    (script : Option String) (idle : L) (ops : List (Op ρ)) :
    let start : LuaState L := ⟨startLua C fresh script, ""⟩
    let w := Runs.run (step C) (new C r script idle) ops
    let msgs := sent C (new C r script idle) ops
    w.mailbox.handled.map (·.1) ++ w.mailbox.hand.toList ++ w.mailbox.queue = msgs ∧
    w.mailbox.queue.length ≤ 1 ∧
    LuaState.Shows C start w.mailbox.handled w.cache ∧
    (∀ pre source r' post fresh' lua, w.mailbox.handled = pre ++ (.reload source, r') :: post →
      C.sandboxedLua r' = some fresh' → C.exec fresh' source = (lua, true) →
        w.mailbox.state.lua =
          (Mailbox.outcome (LuaState.handle C) (new C r' (some source) idle).mailbox.state post).lua) ∧
    ∀ rs : List ρ, w.mailbox.pending ≤ rs.length →
      let rest := rs.foldl (Mailbox.turn (LuaState.handle C)) w.mailbox
      rest.handled.map (·.1) = msgs ∧ LuaState.Shows C start rest.handled rest.state.cache := by
  intro start w msgs
  have h : w.Serves C start msgs := serves_run (serves_new C hfresh script idle) ops
  have hshows : ∀ {b : Mailbox WorkerMessage (LuaState L) ρ},
      b.Ordered capacity (LuaState.handle C) start → LuaState.Shows C start b.handled b.state.cache := by
    intro b hb
    rw [hb.state]
    exact LuaState.shows_outcome rfl _
  refine ⟨h.ordered.accepted.trans h.accepted, h.ordered.bounded, hshows h.ordered, ?_, ?_⟩
  · intro pre source r' post fresh' lua hhandled hfresh' hexec
    have hnew : (new C r' (some source) idle).mailbox.state = ⟨lua, ""⟩ := by
      rw [new, hfresh']
      show LuaState.mk (C.exec fresh' source).1 "" = _
      rw [hexec]
    have hreload : ∀ s : LuaState L, LuaState.handle C s (.reload source) r' = ⟨lua, s.cache⟩ := by
      intro s
      show LuaState.mk (LuaState.reload C r' s.lua source) s.cache = _
      rw [LuaState.reload, hfresh']
      simp only [hexec]
    rw [h.ordered.state, hhandled, Mailbox.outcome_append, hnew]
    show (Mailbox.outcome (LuaState.handle C) (LuaState.handle C _ (.reload source) r') post).lua = _
    rw [hreload]
    exact LuaState.lua_outcome lua _ _ post
  · intro rs hrs rest
    obtain ⟨hordered, hall⟩ := Mailbox.drained h.ordered hrs
    exact ⟨hall.trans h.accepted, hshows hordered⟩

/-- An interpreter with one global, which scripts set and expressions read. -/
def oneGlobal : LuaCrate (Option String) Unit where
  sandboxedLua _ := some none
  exec lua source :=
    if source = "x = 1" then (some "1", true) else if source = "x = 2" then (some "2", true)
    else (lua, false)
  eval _ lua expr := (lua, if expr = "x" then lua else none)

/-- A script is replaced while an expression is evaluated; a request finds the channel full. -/
theorem worker_run_reload :
    let w := Runs.run (step oneGlobal) (new oneGlobal () (some "x = 1") none)
      [.evalWidgets ["x", "y"], .recv, .reload "x = 2", .evalWidgets ["x"], .finish (), .recv, .finish ()]
    w.mailbox.queue.length ≤ 1 ∧ w.mailbox.state.lua = some "2" ∧ w.cache = "1  " := by
  intro w
  obtain ⟨-, hbounded, -, hreload, -⟩ := @worker_run _ _ oneGlobal () none rfl (some "x = 1") none
    [.evalWidgets ["x", "y"], .recv, .reload "x = 2", .evalWidgets ["x"], .finish (), .recv, .finish ()]
  exact ⟨hbounded, hreload [(.eval ["x", "y"], ())] "x = 2" () [] none (some "2") rfl rfl rfl, by decide⟩

end LuaWorker

end Nexterm.Settings
