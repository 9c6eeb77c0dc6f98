/-
  Loading the configuration (`loader.rs`) and the hot reload (`watcher.rs`, `runtime_config.rs`).

  * `load`: defaults, then `nexterm.toml`, then `nexterm.lua`; it never fails.
  * `System`: the watcher, the channel and the configuration that the server shares; `reload` is
    one debounced burst of file events, `deliver` one step of the updater.
  * `readBoth`: the configuration in the files, if there is one; `reload_keeps_good`: while every
    reload finds one, the last is the one that is shared.
-/
import Nexterm.Settings.Lua

namespace Nexterm.Settings.Reload

variable {ρ : Type}

/-! ## Files -/

/-- A configuration file when it is looked at. -/
inductive File
  | missing
  | unreadable (e : String)
  | text (s : String)

structure Disk where
  toml : File
  lua : File
  /-- The default configuration could be written. -/
  writable : Bool

/-- What the loader is given. -/
structure Env (ρ : Type) where
  /-- `Config::default()`. -/
  default : Config ρ
  /-- `toml::from_str`. -/
  fromStr : String → Option (Config ρ)
  /-- Runs a script that finds this table as `nexterm`. -/
  eval : String → LuaTable → Except String LuaValue
  /-- What `get::<bool>` makes of nil. -/
  ofNil : Option Bool
  tomlPath : String
  luaPath : String

namespace Env

variable (env : Env ρ)

/-! ## Loader -/

def loadToml : File → Except String (Config ρ)
  | .text content =>
    match env.fromStr content with
    | some parsed => .ok parsed
    | none => .error ("failed to parse the TOML file: " ++ env.tomlPath)
  | _ => .error ("failed to read the TOML file: " ++ env.tomlPath)

/-- Executes the Lua script and updates the configuration; a script may return no table. -/
def applyLua (c : Config ρ) : File → Except String (Config ρ)
  | .text script =>
    match env.eval script (configToLuaTable c) with
    | .ok (.table tbl _) => .ok (applyLuaTableToConfig env.ofNil c tbl)
    | .ok _ => .ok c
    | .error e => .error ("Lua error: " ++ e)
  | .unreadable e => .error e
  | .missing => .error "No such file or directory"

def pushError (c : Config ρ) (msg : String) : Config ρ :=
  { c with configErrors := c.configErrors ++ [msg] }

/-- The first step, and whether it wrote the default configuration. -/
def loadDefaults (disk : Disk) : Config ρ × Bool :=
  match disk.toml with
  | .missing => (env.default, disk.writable)
  | file =>
    match env.loadToml file with
    | .ok loaded => (loaded, false)
    | .error e => (pushError env.default ("Failed to load the TOML configuration: " ++ e), false)

/-- Loads the configuration (TOML first, Lua second). -/
def load (disk : Disk) : Config ρ × Bool :=
  let (config, wrote) := env.loadDefaults disk
  match disk.lua with
  | .missing => (config, wrote)
  | file =>
    match env.applyLua config file with
    | .ok merged => (merged, wrote)
    | .error e =>
      (pushError config ("Lua configuration error (" ++ env.luaPath ++ "): " ++ e), wrote)

/-- The configuration in the files: the TOML is there and parses, and the Lua, if it is there,
    runs without error. -/
def readBoth (disk : Disk) : Option (Config ρ) :=
  match disk.toml with
  | .text content =>
    (env.fromStr content).bind fun parsed =>
      match disk.lua with
      | .missing => some parsed
      | file => (env.applyLua parsed file).toOption
  | _ => none

theorem load_of_readBoth {disk : Disk} {c : Config ρ} (h : env.readBoth disk = some c) :
    env.load disk = (c, false) := by
  rcases disk with ⟨_ | e | content, lua, writable⟩
  · exact nomatch h
  · exact nomatch h
  obtain ⟨parsed, hparsed, hlua⟩ := Option.bind_eq_some_iff.1 h
  have hfirst : env.loadDefaults ⟨.text content, lua, writable⟩ = (parsed, false) := by
    simp only [loadDefaults, loadToml, hparsed]
  simp only [load, hfirst]
  rcases lua with _ | e | script
  · exact congrArg (·, false) (Option.some.inj hlua)
  · exact nomatch hlua
  · dsimp only at hlua ⊢
    cases hrun : env.applyLua parsed (.text script) with
    | ok merged =>
      rw [hrun] at hlua
      exact congrArg (·, false) (Option.some.inj hlua)
    | error e =>
      rw [hrun] at hlua
      exact nomatch hlua

end Env

/-! ## Runtime configuration -/

/-- Subset of configuration that can be hot-reloaded at runtime. -/
structure RuntimeConfig where
  hooks : HooksConfig
  logConfig : LogConfig
  hosts : List HostConfig
  tabBar : TabBarConfig
  deriving DecidableEq

/-- Extract the hot-reloadable subset. -/
def RuntimeConfig.fromConfig (c : Config ρ) : RuntimeConfig :=
  { hooks := c.hooks, logConfig := c.log, hosts := c.hosts, tabBar := c.tabBar }

/-! ## Watcher and updater -/

/-- A full channel makes the watcher wait, which only delays its next reload: the queue has no
    bound here. -/
structure System (ρ : Type) where
  lastSent : Option (Config ρ)
  queue : List (Config ρ)
  shared : RuntimeConfig
  /-- A reload has written a configuration file. -/
  wrote : Bool

inductive Op
  | reload (disk : Disk)
  | deliver

variable [DecidableEq ρ] (env : Env ρ)

/-- Start-up: the shared configuration is what was loaded. -/
def start (disk : Disk) : System ρ :=
  { lastSent := none, queue := [], shared := .fromConfig (env.load disk).1, wrote := false }

/-- Load, and forward what is not what was sent last. -/
def reload (s : System ρ) (disk : Disk) : System ρ :=
  let (newConfig, wrote) := env.load disk
  let s := { s with wrote := s.wrote || wrote }
  if s.lastSent = some newConfig then s
  else { s with lastSent := some newConfig, queue := s.queue ++ [newConfig] }

def deliver (s : System ρ) : System ρ :=
  match s.queue with
  | [] => s
  | newCfg :: queue => { s with queue := queue, shared := .fromConfig newCfg }

def step (s : System ρ) : Op → System ρ
  | .reload disk => reload env s disk
  | .deliver => deliver s

def run (s : System ρ) (ops : List Op) : System ρ := ops.foldl (step env) s

/-- The configuration of the most recent reload, or of the start, that read both files. -/
def lastGood (env : Env ρ) (disk : Disk) (ops : List Op) : Option (Config ρ) :=
  ops.foldl (fun good op =>
    match op with
    | .reload disk => (env.readBoth disk).or good
    | .deliver => good) (env.readBoth disk)

/-! ## Invariant -/

/-- What is shared once the queue is empty. -/
def System.latest (s : System ρ) : RuntimeConfig :=
  match s.queue.getLast? with
  | some c => .fromConfig c
  | none => s.shared

omit [DecidableEq ρ] in
theorem deliver_latest (s : System ρ) : (deliver s).latest = s.latest := by
  rcases s with ⟨lastSent, _ | ⟨c, _ | ⟨c', queue⟩⟩, shared, wrote⟩ <;> rfl

/-- What was sent last is what will be shared, and so is what was read last. -/
structure Inv (good : Option (Config ρ)) (s : System ρ) : Prop where
  lastSent : ∀ c, s.lastSent = some c → s.latest = .fromConfig c
  good : ∀ c, good = some c → s.latest = .fromConfig c
  wrote : s.wrote = false

omit [DecidableEq ρ] in
theorem inv_start (disk : Disk) : Inv (env.readBoth disk) (start env disk) where
  lastSent := by simp [start]
  good := by
    intro c hgood
    simp [start, System.latest, env.load_of_readBoth hgood]
  wrote := rfl

omit [DecidableEq ρ] in
theorem Inv.deliver {good : Option (Config ρ)} {s : System ρ} (h : Inv good s) :
    Inv good (deliver s) where
  lastSent := by
    intro c hc
    rw [deliver_latest]
    refine h.lastSent c ?_
    rcases s with ⟨lastSent, _ | ⟨c', queue⟩, shared, wrote⟩ <;> exact hc
  good := by
    intro c hc
    rw [deliver_latest]
    exact h.good c hc
  wrote := by
    rcases s with ⟨lastSent, _ | ⟨c', queue⟩, shared, wrote⟩ <;> exact h.wrote

/-- A reload that reads both files makes what it read the last, whatever was before. -/
theorem Inv.reload {good : Option (Config ρ)} {s : System ρ} (h : Inv good s) {disk : Disk}
    {c : Config ρ} (hc : env.readBoth disk = some c) : Inv (some c) (reload env s disk) := by
  have hload := env.load_of_readBoth hc
  by_cases hsent : s.lastSent = some c
  · -- The same as before is not sent again.
    have hstep : Reload.reload env s disk = s := by
      cases s
      simp_all [Reload.reload]
    rw [hstep]
    refine ⟨h.lastSent, ?_, h.wrote⟩
    rintro c' ⟨⟩
    exact h.lastSent c hsent
  · have hstep : Reload.reload env s disk =
        { s with lastSent := some c, queue := s.queue ++ [c] } := by
      simp [Reload.reload, hload, hsent]
    have hlatest : (Reload.reload env s disk).latest = .fromConfig c := by
      simp [hstep, System.latest]
    refine ⟨?_, ?_, by rw [hstep]; exact h.wrote⟩
    · intro c' hc'
      rw [hstep] at hc'
      rw [hlatest, Option.some.inj hc']
    · rintro c' ⟨⟩
      exact hlatest

theorem Inv.run {good : Option (Config ρ)} {s : System ρ} (h : Inv good s) {ops : List Op}
    (hops : ∀ disk, Op.reload disk ∈ ops → (env.readBoth disk).isSome = true) :
    Inv (ops.foldl (fun good op =>
      match op with
      | .reload disk => (env.readBoth disk).or good
      | .deliver => good) good) (run env s ops) := by
  induction ops generalizing good s with
  | nil => exact h
  | cons op ops ih =>
    have hrest : ∀ disk, Op.reload disk ∈ ops → (env.readBoth disk).isSome = true :=
      fun disk hmem => hops disk (List.mem_cons_of_mem _ hmem)
    cases op with
    | reload disk =>
      obtain ⟨c, hc⟩ := Option.isSome_iff_exists.1 (hops disk List.mem_cons_self)
      have hnext := ih (h.reload env hc) hrest
      rw [List.foldl_cons]
      dsimp only
      rw [hc]
      exact hnext
    | deliver => exact ih h.deliver hrest

/-- In a run whose reloads all find the TOML parsable and the Lua missing or running without
    error: whenever nothing is on its way, the last configuration read is the one that is shared;
    and no reload writes a file. -/
theorem reload_keeps_good (disk : Disk) (ops : List Op)
    (hops : ∀ disk', Op.reload disk' ∈ ops → (env.readBoth disk').isSome = true) :
    ((run env (start env disk) ops).queue = [] → ∀ c, lastGood env disk ops = some c →
      (run env (start env disk) ops).shared = .fromConfig c) ∧
    (run env (start env disk) ops).wrote = false := by
  have hinv := (inv_start env disk).run env hops
  refine ⟨?_, hinv.wrote⟩
  intro hqueue c hc
  have hlatest := hinv.good c hc
  rwa [System.latest, hqueue] at hlatest

/-- A loader for two texts: one host, and two. -/
def sampleEnv : Env Unit :=
  { default := paletteConfig
    fromStr := fun content =>
      if content = "one" then some { paletteConfig with hosts := [sampleHost "a"] }
      else if content = "two" then
        some { paletteConfig with hosts := [sampleHost "a", sampleHost "b"] }
      else none
    eval := fun _ _ => .ok .nil
    ofNil := some false
    tomlPath := "nexterm.toml"
    luaPath := "nexterm.lua" }
where
  sampleHost (name : String) : HostConfig :=
    { name := name, host := name, port := 22, username := "ops", authType := "key",
      keyPath := none, forwardLocal := [], forwardRemote := [], proxyJump := none,
      x11Forward := false, x11Trusted := false, group := "", tags := [] }

theorem reload_keeps_good_two :
    ((run sampleEnv (start sampleEnv ⟨.text "one", .missing, true⟩)
        [.reload ⟨.text "two", .text "return 1", true⟩, .deliver]).queue = [] →
      ∀ c, lastGood sampleEnv ⟨.text "one", .missing, true⟩
          [.reload ⟨.text "two", .text "return 1", true⟩, .deliver] = some c →
        (run sampleEnv (start sampleEnv ⟨.text "one", .missing, true⟩)
          [.reload ⟨.text "two", .text "return 1", true⟩, .deliver]).shared = .fromConfig c) ∧
    (run sampleEnv (start sampleEnv ⟨.text "one", .missing, true⟩)
      [.reload ⟨.text "two", .text "return 1", true⟩, .deliver]).wrote = false := by
  refine reload_keeps_good sampleEnv _ _ ?_
  intro disk hmem
  rcases List.mem_cons.1 hmem with heq | hmem
  · cases heq
    rfl
  · simp at hmem

/-- A file that is half written, or gone for a moment: the defaults are shared, and a file is
    written. -/
theorem not_keeps_good_half :
    (lastGood sampleEnv ⟨.text "one", .missing, true⟩
        [.reload ⟨.text "on", .missing, true⟩, .deliver]).map (·.hosts.length) = some 1 ∧
      (run sampleEnv (start sampleEnv ⟨.text "one", .missing, true⟩)
        [.reload ⟨.text "on", .missing, true⟩, .deliver]).queue = [] ∧
      (run sampleEnv (start sampleEnv ⟨.text "one", .missing, true⟩)
        [.reload ⟨.text "on", .missing, true⟩, .deliver]).shared.hosts = [] ∧
      (run sampleEnv (start sampleEnv ⟨.text "one", .missing, true⟩)
        [.reload ⟨.missing, .missing, true⟩]).wrote = true := by
  decide +kernel

end Nexterm.Settings.Reload
