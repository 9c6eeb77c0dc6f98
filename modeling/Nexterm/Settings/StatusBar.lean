/-
  The texts of the status bar (`status_bar.rs`, and the poll in `event_handler/lifecycle.rs`).

  * `evaluateBuiltin`: the built-in widgets; every other widget is a Lua expression.
  * `Poll`: what one side of the bar is evaluated with; `Poll.calls`, `Poll.text`: the requests to
    the worker, and the text.
  * `StatusBar`: both sides, the evaluation in progress and the worker that they share.
  * `bar_run`: what a side shows, whatever the order of the steps.

  The environment of a side is read once for each poll, while the source asks the clock for every
  widget.
-/
import Nexterm.Lib.Paths
import Nexterm.Settings.AlacrittyColors
import Nexterm.Settings.LuaWorker
import Nexterm.Web.Dates

namespace Nexterm.Settings

/-! ## Widgets -/

/-- Current context. -/
structure WidgetContext where
  sessionName : Option String
  paneId : Option ℕ
  cwd : Option String
  workspaceName : Option String

/-- What the built-in widgets read: the clock, variables of the environment and files. -/
structure WidgetEnv where
  secs : ℕ
  hostname : Option String
  computername : Option String
  home : Option String
  userprofile : Option String
  os : Paths.Os
  readToString : Paths.Path → Option String

/-- A number with leading zeros. -/
def zeroPadded (width n : ℕ) : String := String.ofList ((Nat.toDigits 10 n).leftpad width '0')

/-- Longer paths are cut. -/
def shortenMax : ℕ := 40

/-- Shortens a cwd by collapsing the home directory, and keeps the end of a long one. -/
def shortenCwd (env : WidgetEnv) (path : String) : String :=
  if path.isEmpty then ""
  else
    let home := ((env.home <|> env.userprofile).getD "").toList
    let s := if !home.isEmpty && home.isPrefixOf path.toList then
        '~' :: path.toList.drop home.length else path.toList
    let s := s.map fun c => if c = '\\' then '/' else c
    if s.length > shortenMax then String.ofList ('…' :: (s.reverse.take (shortenMax - 1)).reverse)
    else String.ofList s

/-- What `.git/HEAD` says: a branch, or the first characters of a commit. -/
def headBranch (content : String) : String :=
  let trimmed := Vt.trim content
  let ref := "ref: refs/heads/"
  if ref.toList.isPrefixOf trimmed.toList then String.ofList (trimmed.toList.drop ref.length)
  else if trimmed.utf8ByteSize ≥ 7 ∧ trimmed.toList.all Theme.isAsciiHexdigit then
    String.ofList (trimmed.toList.take 7)
  else ""

/-- Walks up to a directory with a `.git/HEAD`, over at most `n` directories. -/
def findGitHead (env : WidgetEnv) : ℕ → Paths.Path → Option String
  | 0, _ => none
  | n + 1, dir =>
    let head := (dir.join (.ofName ".git".toList)).join (.ofName "HEAD".toList)
    match env.readToString head with
    | some content => some content
    | none => dir.parent.bind (findGitHead env n)

/-- Reads the current branch name, or a short commit. -/
def readGitBranch (env : WidgetEnv) (cwd : String) : String :=
  if cwd.isEmpty then ""
  else ((findGitHead env 30 (Paths.parse env.os cwd.toList)).map headBranch).getD ""

/-- Evaluates a built-in widget; `none` is a Lua expression. -/
def evaluateBuiltin (keyword : String) (env : WidgetEnv) (ctx : WidgetContext) : Option String :=
  match keyword with
  | "time" =>
    let hms := env.secs % 86400
    some (zeroPadded 2 (hms / 3600) ++ ":" ++ zeroPadded 2 (hms % 3600 / 60) ++ ":" ++
      zeroPadded 2 (hms % 60))
  | "date" =>
    let (y, mo, d) := Web.StatusBar.daysToYmd (env.secs / 86400)
    some (zeroPadded 4 y ++ "-" ++ zeroPadded 2 mo ++ "-" ++ zeroPadded 2 d)
  | "hostname" => some ((env.hostname <|> env.computername).getD "localhost")
  | "session" => some (ctx.sessionName.getD "—")
  | "pane_id" => some ((ctx.paneId.map fun id => "pane:" ++ toString id).getD "pane:—")
  | "workspace" => some (ctx.workspaceName.getD "—")
  | "cwd" => some (ctx.cwd.getD "")
  | "cwd_short" => some (shortenCwd env (ctx.cwd.getD ""))
  | "git_branch" => some (readGitBranch env (ctx.cwd.getD ""))
  | _ => none

/-! ## A side of the bar -/

/-- What a side is evaluated with. -/
structure Poll where
  widgets : List String
  ctx : WidgetContext
  env : WidgetEnv
  separator : String

namespace Poll

/-- The Lua expressions among the widgets. -/
def luaExprs (p : Poll) : List String :=
  p.widgets.filter fun w => (evaluateBuiltin w p.env p.ctx).isNone

/-- The values of the other ones, as far as they are not empty. -/
def builtinParts (p : Poll) : List String :=
  (p.widgets.filterMap fun w => evaluateBuiltin w p.env p.ctx).filter fun part => !part.isEmpty

/-- The requests for an evaluation: one at the beginning, one for each Lua expression, which goes
    unused, and the one whose answer is shown. -/
def calls (p : Poll) : ℕ := if p.luaExprs = [] then 0 else p.luaExprs.length + 2

/-- The text, with the answer of the last request. -/
def text (p : Poll) (cached : String) : String :=
  if p.widgets = [] then ""
  else if p.widgets.length = 1 ∧ p.luaExprs ≠ [] then cached
  else
    let luaPart := if p.luaExprs = [] then "" else cached
    p.separator.intercalate (p.builtinParts ++ if luaPart.isEmpty then [] else [luaPart])

end Poll

/-! ## The bar -/

inductive Side
  | left
  | right
  deriving DecidableEq

/-- The bar, and the requests that an evaluation still has to make. -/
structure StatusBar (L ρ : Type) where
  worker : LuaWorker L ρ
  statusBarText : String
  statusBarRightText : String
  /-- The side that is next. -/
  side : Side
  evaluation : Option (Poll × ℕ)

namespace StatusBar

variable {L ρ : Type}

def text (s : StatusBar L ρ) : Side → String
  | .left => s.statusBarText
  | .right => s.statusBarRightText

/-- A side has its text, and it is the other one's turn. -/
def shown (s : StatusBar L ρ) (text : String) : StatusBar L ρ :=
  match s.side with
  | .left => { s with statusBarText := text, side := .right, evaluation := none }
  | .right => { s with statusBarRightText := text, side := .left, evaluation := none }

/-- A step of the user interface, of another thread, or of the worker. -/
inductive Op (ρ : Type)
  /-- The next side is evaluated. -/
  | evaluate (p : Poll)
  /-- The evaluation makes its next request. -/
  | call
  | reload (newSource : String)
  | recv
  | finish (r : ρ)

variable (C : LuaCrate L ρ)

def step (s : StatusBar L ρ) : Op ρ → StatusBar L ρ
  | .evaluate p =>
    if s.evaluation.isSome then s
    else if p.calls = 0 then s.shown (p.text "") else { s with evaluation := some (p, p.calls) }
  | .call =>
    match s.evaluation with
    | some (p, n + 1) =>
      let (worker, cached) := s.worker.evalWidgets p.luaExprs
      let s := { s with worker := worker }
      if n = 0 then s.shown (p.text cached) else { s with evaluation := some (p, n) }
    | _ => s
  | .reload newSource => { s with worker := s.worker.step C (.reload newSource) }
  | .recv => { s with worker := s.worker.step C .recv }
  | .finish r => { s with worker := s.worker.step C (.finish r) }

variable {C}

/-- The bar at the start of the client. -/
def new (worker : LuaWorker L ρ) : StatusBar L ρ := ⟨worker, "", "", .left, none⟩

/-- What the sides were evaluated with. -/
def polls (ops : List (Op ρ)) : List Poll :=
  ops.filterMap fun
    | .evaluate p => some p
    | _ => none

/-- The text is one that the cache has had. -/
def Seen (C : LuaCrate L ρ) (start : LuaState L) (s : StatusBar L ρ) (cached : String) : Prop :=
  ∃ earlier, earlier <+: s.worker.mailbox.handled ∧ LuaState.Shows C start earlier cached

/-- What is known of the bar after some polls. -/
structure Kept (C : LuaCrate L ρ) (start : LuaState L) (ps : List Poll) (s : StatusBar L ρ) : Prop where
  alive : s.worker.alive = true
  ordered : s.worker.mailbox.Ordered LuaWorker.capacity (LuaState.handle C) start
  asked : ∀ exprs, .eval exprs ∈ s.worker.mailbox.accepted → ∃ p ∈ ps, exprs = p.luaExprs
  evaluation : ∀ x ∈ s.evaluation, x.1 ∈ ps
  text : ∀ side, s.text side = "" ∨ ∃ p ∈ ps, ∃ cached, Seen C start s cached ∧ s.text side = p.text cached

theorem seen_cache {start : LuaState L} {s : StatusBar L ρ} (hstart : start.cache = "")
    (h : s.worker.mailbox.Ordered LuaWorker.capacity (LuaState.handle C) start) :
    Seen C start s s.worker.cache := by
  refine ⟨_, List.prefix_refl _, ?_⟩
  rw [LuaWorker.cache, h.state]
  exact LuaState.shows_outcome hstart _

theorem seen_empty (start : LuaState L) (s : StatusBar L ρ) : Seen C start s "" :=
  ⟨[], List.nil_prefix, .inl ⟨rfl, nofun⟩⟩

/-- A step of the worker's threads that asks for nothing. -/
theorem Kept.worker {start : LuaState L} {ps : List Poll} {s : StatusBar L ρ} (h : Kept C start ps s)
    {worker : LuaWorker L ρ} (halive : worker.alive = true)
    (hordered : worker.mailbox.Ordered LuaWorker.capacity (LuaState.handle C) start)
    (hasked : ∀ exprs, .eval exprs ∈ worker.mailbox.accepted → ∃ p ∈ ps, exprs = p.luaExprs)
    (hhandled : s.worker.mailbox.handled <+: worker.mailbox.handled) :
    Kept C start ps { s with worker := worker } := by
  refine ⟨halive, hordered, hasked, h.evaluation, fun side => ?_⟩
  rcases h.text side with hempty | ⟨p, hp, cached, ⟨earlier, hearlier, hshows⟩, htext⟩
  · exact .inl hempty
  · exact .inr ⟨p, hp, cached, ⟨earlier, hearlier.trans hhandled, hshows⟩, htext⟩

/-- A side gets its text. -/
theorem Kept.shown {start : LuaState L} {ps : List Poll} {s : StatusBar L ρ} (h : Kept C start ps s)
    {p : Poll} (hp : p ∈ ps) {cached : String} (hseen : Seen C start s cached) :
    Kept C start ps (s.shown (p.text cached)) := by
  unfold StatusBar.shown
  cases s.side with
  | left =>
    refine ⟨h.alive, h.ordered, h.asked, fun x hx => absurd hx (Option.not_mem_none x), fun side => ?_⟩
    cases side with
    | left => exact .inr ⟨p, hp, cached, hseen, rfl⟩
    | right => exact h.text .right
  | right =>
    refine ⟨h.alive, h.ordered, h.asked, fun x hx => absurd hx (Option.not_mem_none x), fun side => ?_⟩
    cases side with
    | left => exact h.text .left
    | right => exact .inr ⟨p, hp, cached, hseen, rfl⟩

theorem Kept.mono {start : LuaState L} {ps : List Poll} {s : StatusBar L ρ} (h : Kept C start ps s)
    (p : Poll) : Kept C start (ps ++ [p]) s := by
  have hmem : ∀ {q}, q ∈ ps → q ∈ ps ++ [p] := List.mem_append_left _
  refine ⟨h.alive, h.ordered, fun exprs hexprs => ?_, fun x hx => hmem (h.evaluation x hx), fun side => ?_⟩
  · obtain ⟨q, hq, heq⟩ := h.asked exprs hexprs
    exact ⟨q, hmem hq, heq⟩
  · rcases h.text side with hempty | ⟨q, hq, hrest⟩
    · exact .inl hempty
    · exact .inr ⟨q, hmem hq, hrest⟩

theorem Kept.send_eq {start : LuaState L} {ps : List Poll} {s : StatusBar L ρ} (h : Kept C start ps s)
    (msg : WorkerMessage) : s.worker.send msg =
      { s.worker with mailbox := s.worker.mailbox.trySend LuaWorker.capacity msg } := if_pos h.alive

theorem Kept.handled_send {start : LuaState L} {ps : List Poll} {s : StatusBar L ρ}
    (h : Kept C start ps s) (msg : WorkerMessage) :
    s.worker.mailbox.handled <+: (s.worker.send msg).mailbox.handled := by
  rw [h.send_eq, Mailbox.handled_trySend]

/-- A message is sent to the worker. -/
theorem Kept.serve {start : LuaState L} {ps : List Poll} {s : StatusBar L ρ} (h : Kept C start ps s)
    (msg : WorkerMessage) (hmsg : ∀ exprs, msg = .eval exprs → ∃ p ∈ ps, exprs = p.luaExprs) :
    Kept C start ps { s with worker := s.worker.send msg } := by
  refine h.worker ?_ ?_ ?_ (h.handled_send msg) <;> rw [h.send_eq]
  · exact h.alive
  · exact h.ordered.trySend msg
  · intro exprs hexprs
    rcases @Mailbox.trySend_cases _ _ _ LuaWorker.capacity s.worker.mailbox msg with ⟨-, heq⟩ | ⟨-, heq⟩
    · rw [heq] at hexprs
      rcases List.mem_append.1 hexprs with hold | hnew
      · exact h.asked exprs hold
      · exact hmsg exprs (List.mem_singleton.1 hnew).symm
    · rw [heq] at hexprs
      exact h.asked exprs hexprs

theorem Kept.step {start : LuaState L} {ps : List Poll} {s : StatusBar L ρ} (hstart : start.cache = "")
    (h : Kept C start ps s) (op : Op ρ) : Kept C start (ps ++ polls [op]) (s.step C op) := by
  cases op with
  | evaluate p =>
    have hps : Kept C start (ps ++ [p]) s := h.mono p
    have hp : p ∈ ps ++ [p] := List.mem_append_right _ (List.mem_singleton_self p)
    show Kept C start (ps ++ [p]) (if s.evaluation.isSome then s else _)
    split_ifs
    · exact hps
    · exact hps.shown hp (seen_empty start s)
    · refine ⟨hps.alive, hps.ordered, hps.asked, fun x hx => ?_, hps.text⟩
      obtain rfl := Option.some_inj.1 hx
      exact hp
  | call =>
    rw [show polls [(.call : Op ρ)] = [] from rfl, List.append_nil]
    simp only [StatusBar.step]
    split
    case h_1 p n heval =>
      have hp : p ∈ ps := h.evaluation (p, n + 1) heval
      have hserve := h.serve (.eval p.luaExprs) fun exprs heq => ⟨p, hp, (WorkerMessage.eval.inj heq).symm⟩
      have hseen : Seen C start { s with worker := s.worker.send (.eval p.luaExprs) } s.worker.cache := by
        obtain ⟨earlier, hearlier, hshows⟩ := seen_cache hstart h.ordered
        exact ⟨earlier, hearlier.trans (h.handled_send _), hshows⟩
      split_ifs
      · exact hserve.shown hp hseen
      · refine ⟨hserve.alive, hserve.ordered, hserve.asked, fun x hx => ?_, hserve.text⟩
        obtain rfl := Option.some_inj.1 hx
        exact hp
    case h_2 => exact h
  | reload newSource =>
    rw [show polls [(.reload newSource : Op ρ)] = [] from rfl, List.append_nil]
    have hreload : s.worker.step C (.reload newSource) = s.worker.send (.reload newSource) := by
      show (s.worker.reload newSource).1 = _
      rw [LuaWorker.reload, if_pos h.alive]
    show Kept C start ps { s with worker := _ }
    rw [hreload]
    exact h.serve _ (by simp)
  | recv =>
    rw [show polls [(.recv : Op ρ)] = [] from rfl, List.append_nil]
    obtain ⟨hhandled, haccepted, -⟩ := s.worker.mailbox.recv_frame
    refine h.worker h.alive h.ordered.recv (fun exprs hexprs => h.asked exprs ?_) ?_
    · rw [← haccepted]
      exact hexprs
    · rw [← hhandled]
      exact List.prefix_refl _
  | finish r =>
    rw [show polls [(.finish r : Op ρ)] = [] from rfl, List.append_nil]
    obtain ⟨hhandled, haccepted⟩ := @Mailbox.finish_frame _ _ _ (LuaState.handle C) s.worker.mailbox r
    refine h.worker h.alive (h.ordered.finish r) (fun exprs hexprs => h.asked exprs ?_) hhandled
    rw [← haccepted]
    exact hexprs

theorem kept_run {start : LuaState L} {worker : LuaWorker L ρ} (hstart : start.cache = "")
    (h : worker.Serves C start []) (ops : List (Op ρ)) :
    Kept C start (polls ops) (Runs.run (StatusBar.step C) (new worker) ops) := by
  induction ops using List.reverseRecOn with
  | nil =>
    refine ⟨h.alive, h.ordered, fun exprs hexprs => ?_, fun x hx => absurd hx (Option.not_mem_none x),
      fun side => .inl ?_⟩
    · have hmem : .eval exprs ∈ worker.mailbox.accepted := hexprs
      rw [h.accepted] at hmem
      cases hmem
    · cases side <;> rfl
  | append_singleton ops op ih =>
    rw [Runs.run_concat, show polls (ops ++ [op]) = polls ops ++ polls [op] from List.filterMap_append]
    exact ih.step hstart op

/-- A poll at the epoch. -/
def pollOf (widgets : List String) : Poll where
  widgets := widgets
  ctx := ⟨some "main", some 1, none, none⟩
  env := ⟨0, none, none, none, none, .unix, fun _ => none⟩
  separator := " | "

/-- Both sides have a Lua expression. -/
def sharedOps : List (Op Unit) :=
  [.evaluate (pollOf ["x"]), .call, .call, .call, .recv, .finish (),
    .evaluate (pollOf ["session", "y"]), .call, .call, .call]

end StatusBar

end Nexterm.Settings
