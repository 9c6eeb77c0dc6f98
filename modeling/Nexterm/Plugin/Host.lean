/-
  The host side of the plugins (`nexterm-plugin`): what a plugin can make the host do.

  * `HostCall.run`: a call of one of the host imports, with any arguments; `none` is a panic.
  * `Entry`: what a plugin does in one of its entry points, any sequence of host calls.
  * `loadBlocking`, `Manager.step`: the entry points that the host calls, and the effects of the
    host calls made in them.
  * `Gated`: which effects are allowed; `plugins_gated`: there are no others, and no panic.

  The memory of a plugin and the answers of the read callback are arbitrary at each host call; the
  log buffer, which nothing reads, is left out.
-/
import Mathlib.Algebra.Group.Int.Defs
import Mathlib.Algebra.Group.Nat.Defs
import Nexterm.Plugin.Sanitize

namespace Nexterm.Plugin

/-- Current plugin ABI version number. -/
def pluginApiVersion : UInt32 := 3

/-- Lowest plugin ABI version that may call the read host imports. -/
def minReadApiVersion : UInt32 := 3

/-- Lowest API version accepted for load. -/
def minSupportedApiVersion : UInt32 := 1

/-- Maximum number of plugin memory pages. -/
def maxMemoryPages : ℕ := 256

/-! ## Host calls -/

/-- An `i32` as a `usize`: negative values become huge. -/
def asUsize (x : Int32) : ℕ := (x.toInt % 2 ^ 64).toNat

/-- `usize::saturating_add`. -/
def saturatingAdd (a b : ℕ) : ℕ := min (a + b) (2 ^ 64 - 1)

/-- `data[start..end]`; it panics if the range is not inside the data. -/
def slice (data : List UInt8) (start stop : ℕ) : Option (List UInt8) :=
  if start ≤ stop ∧ stop ≤ data.length then some ((data.drop start).take (stop - start)) else none

/-- The kind of read requested by a plugin. -/
inductive ReadKind
  | paneText
  | grid
  | scrollback (startLine maxLines : ℕ)
  deriving DecidableEq

/-- Outcome of a plugin read request. -/
inductive ReadOutcome
  | denied
  | unknownPane
  | data (bytes : List UInt8)

/-- What the gates look at: the API version and the panes of the current hook invocation. -/
structure HostState where
  allowedPanes : List UInt32
  apiVersion : UInt32

/-- A call of a host import. -/
inductive Import
  | apiVersion
  | log (ptr len : Int32)
  | writePane (paneId ptr len : Int32)
  | readPane (paneId outPtr outMax : Int32)
  | readGrid (paneId outPtr outMax : Int32)
  | readScrollback (paneId startLine maxLines outPtr outMax : Int32)

/-- A host call: the import, the exported memory at that time, and what the read callback would
    answer. -/
structure HostCall where
  callee : Import
  memory : Option (List UInt8)
  answer : ReadOutcome

/-- What the host does. -/
inductive Effect
  /-- The callback `write_pane` is invoked. -/
  | writePane (paneId : UInt32) (bytes : List UInt8)
  /-- The callback `read_fn` is invoked. -/
  | readFn (paneId : UInt32) (kind : ReadKind)
  /-- A read of at most `outMax` bytes writes into a memory of this size. -/
  | store (memorySize outMax start : ℕ) (bytes : List UInt8)
  /-- A hook is called with a payload. -/
  | call (payload : List UInt8)

/-- The read host imports: the version, the panes of the hook, then the callback. -/
def performPluginRead (s : HostState) (memory : Option (List UInt8)) (answer : ReadOutcome)
    (paneId : Int32) (kind : ReadKind) (outPtr outMax : Int32) : List Effect × Int32 :=
  if outPtr < 0 ∨ outMax < 0 then ([], -3)
  else if s.apiVersion < minReadApiVersion then ([], -1)
  else if paneId.toUInt32 ∉ s.allowedPanes then ([], -2)
  else
    let read := [Effect.readFn paneId.toUInt32 kind]
    match answer with
    | .denied => (read, -4)
    | .unknownPane => (read, -2)
    | .data bytes =>
      if bytes.length > asUsize outMax then (read, -3)
      else
        match memory with
        | none => (read, -3)
        | some mem =>
          let start := asUsize outPtr
          if saturatingAdd start bytes.length > mem.length then (read, -3)
          -- `Memory::write` checks the bounds itself
          else if start + bytes.length > mem.length then (read, -3)
          else
            (read ++ [.store mem.length (asUsize outMax) start bytes], Int32.ofNat bytes.length)

/-- The bytes that the plugin points at, if they are in its memory. -/
def pointed (memory : Option (List UInt8)) (ptr len : Int32) : Option (Option (List UInt8)) :=
  match memory with
  | none => some none
  | some data =>
    let start := asUsize ptr
    let stop := saturatingAdd start (asUsize len)
    if stop ≤ data.length then (slice data start stop).map some else some none

/-- Perform a host call: its effects and what it returns. -/
def HostCall.run (s : HostState) (c : HostCall) : Option (List Effect × Int32) :=
  match c.callee with
  | .apiVersion => some ([], pluginApiVersion.toInt32)
  | .log ptr len => (pointed c.memory ptr len).map fun _ => ([], 0)
  | .writePane paneId ptr len =>
    if s.apiVersion < 2 ∨ paneId.toUInt32 ∈ s.allowedPanes then
      (pointed c.memory ptr len).map fun bytes =>
        (bytes.toList.map (.writePane paneId.toUInt32), 0)
    else some ([], 0)
  | .readPane paneId outPtr outMax =>
    some (performPluginRead s c.memory c.answer paneId .paneText outPtr outMax)
  | .readGrid paneId outPtr outMax =>
    some (performPluginRead s c.memory c.answer paneId .grid outPtr outMax)
  | .readScrollback paneId startLine maxLines outPtr outMax =>
    let kind := .scrollback startLine.toInt.toNat maxLines.toInt.toNat
    some (performPluginRead s c.memory c.answer paneId kind outPtr outMax)

/-- The effect is one that the gates let through. -/
def HostState.Permits (s : HostState) : Effect → Prop
  | .writePane paneId _ => s.apiVersion < 2 ∨ paneId ∈ s.allowedPanes
  | .readFn paneId _ => minReadApiVersion ≤ s.apiVersion ∧ paneId ∈ s.allowedPanes
  | .store memorySize outMax start bytes =>
    start + bytes.length ≤ memorySize ∧ bytes.length ≤ outMax
  | .call _ => False

theorem asUsize_lt (x : Int32) : asUsize x < 2 ^ 64 := by
  unfold asUsize
  omega

/-- A slice that ends inside the memory does not start behind its end. -/
theorem pointed_ne_none (memory : Option (List UInt8)) (ptr len : Int32) :
    ∃ bytes, pointed memory ptr len = some bytes := by
  cases memory with
  | none => exact ⟨none, rfl⟩
  | some data =>
    unfold pointed
    dsimp only
    split_ifs with hstop
    · have hstart : asUsize ptr ≤ saturatingAdd (asUsize ptr) (asUsize len) := by
        have := asUsize_lt ptr
        unfold saturatingAdd
        omega
      rw [slice, if_pos ⟨hstart, hstop⟩]
      exact ⟨_, rfl⟩
    · exact ⟨none, rfl⟩

theorem performPluginRead_spec (s : HostState) (memory : Option (List UInt8))
    (answer : ReadOutcome) (paneId : Int32) (kind : ReadKind) (outPtr outMax : Int32) :
    ∀ e ∈ (performPluginRead s memory answer paneId kind outPtr outMax).1, s.Permits e := by
  unfold performPluginRead
  split_ifs with hneg hversion hpane
  · simp
  · simp
  swap
  · simp
  have hread : ∀ e ∈ [Effect.readFn paneId.toUInt32 kind], s.Permits e := by
    intro e he
    rw [List.mem_singleton.1 he]
    exact ⟨UInt32.not_lt.1 hversion, hpane⟩
  cases answer with
  | denied => exact hread
  | unknownPane => exact hread
  | data bytes =>
    dsimp only
    split_ifs with hmax
    · exact hread
    cases memory with
    | none => exact hread
    | some mem =>
      dsimp only
      split_ifs with hsat hfit
      · exact hread
      · exact hread
      intro e he
      rcases List.mem_append.1 he with he | he
      · exact hread e he
      · rw [List.mem_singleton.1 he]
        exact ⟨by omega, by omega⟩

/-- A host call does not panic, whatever its arguments, and does only what the gates permit. -/
theorem HostCall.run_spec (s : HostState) (c : HostCall) :
    ∃ effects r, c.run s = some (effects, r) ∧ ∀ e ∈ effects, s.Permits e := by
  unfold HostCall.run
  cases c.callee with
  | apiVersion => exact ⟨[], _, rfl, by simp⟩
  | log ptr len =>
    obtain ⟨bytes, hbytes⟩ := pointed_ne_none c.memory ptr len
    exact ⟨[], 0, by simp [hbytes], by simp⟩
  | writePane paneId ptr len =>
    dsimp only
    split_ifs with hallowed
    · obtain ⟨bytes, hbytes⟩ := pointed_ne_none c.memory ptr len
      refine ⟨_, 0, by simp [hbytes]; rfl, fun e he => ?_⟩
      obtain ⟨data, -, rfl⟩ := List.mem_map.1 he
      exact hallowed
    · exact ⟨[], 0, rfl, by simp⟩
  | readPane paneId outPtr outMax => exact ⟨_, _, rfl, fun e he => performPluginRead_spec _ _ _ _ _ _ _ e he⟩
  | readGrid paneId outPtr outMax => exact ⟨_, _, rfl, fun e he => performPluginRead_spec _ _ _ _ _ _ _ e he⟩
  | readScrollback paneId startLine maxLines outPtr outMax =>
    exact ⟨_, _, rfl, fun e he => performPluginRead_spec _ _ _ _ _ _ _ e he⟩

/-! ## Entry points -/

/-- What a plugin does in one of its entry points: any host calls, and what it returns (`none` is
    a trap). -/
structure Entry where
  calls : List HostCall
  result : Option Int32

/-- The host calls of an entry point, one after the other. -/
def runCalls (s : HostState) : List HostCall → Option (List Effect)
  | [] => some []
  | c :: cs => do
    let (effects, _) ← c.run s
    let rest ← runCalls s cs
    return effects ++ rest

/-- How the host finds an export when it wants to call it: whether it is there with the right
    type, the size of the exported memory, whether the fuel can be set, and what it does. -/
structure Invocation where
  exported : Bool
  memorySize : Option ℕ
  fuel : Bool
  entry : Entry

/-- The entry points of a plugin, and the hooks with their arguments. -/
inductive Phase
  | start
  | version
  | init
  | metadata
  | onOutput (paneId : UInt32)
  | onCommand
  deriving DecidableEq

/-- An effect, with the plugin that causes it, the version that this plugin declares and the entry
    point it is in. -/
structure Traced where
  plugin : ℕ
  declared : Option UInt32
  phase : Phase
  effect : Effect

/-- A plugin's runtime instance; `id` and `declared` are for the trace. -/
structure PluginInstance where
  id : ℕ
  declared : Option UInt32
  path : String
  apiVersion : UInt32
  host : HostState

theorem runCalls_spec (s : HostState) (cs : List HostCall) :
    ∃ effects, runCalls s cs = some effects ∧ ∀ e ∈ effects, s.Permits e := by
  induction cs with
  | nil => exact ⟨[], rfl, by simp⟩
  | cons c cs ih =>
    obtain ⟨effects, r, hc, hpermits⟩ := c.run_spec s
    obtain ⟨rest, hcs, hrest⟩ := ih
    refine ⟨effects ++ rest, by simp [runCalls, hc, hcs], fun e he => ?_⟩
    exact (List.mem_append.1 he).elim (hpermits e) (hrest e)

/-! ## Loading -/

/-- A WASM file: whether it compiles, what it does while it is loaded, the pages of its memory. -/
structure Wasm where
  path : String
  valid : Bool
  start : Invocation
  pages : Option ℕ
  version : Invocation
  init : Invocation
  metadata : Invocation

/-- The version that a plugin declares: what its `nexterm_api_version` returns. -/
def Wasm.declared (w : Wasm) : Option UInt32 :=
  if w.version.exported then w.version.entry.result.map Int32.toUInt32 else none

/-- API version detection and compatibility check. -/
def Wasm.detectVersion (w : Wasm) : Option UInt32 :=
  match w.declared with
  | none => some minSupportedApiVersion
  | some v =>
    if v > pluginApiVersion then none else if v < minSupportedApiVersion then none else some v

/-- An entry point that takes no payload: it is called if the export is there. -/
def Wasm.enter (w : Wasm) (id : ℕ) (s : HostState) (phase : Phase) (call : Invocation) :
    Option (List Traced) := do
  if call.exported then
    let effects ← runCalls s call.entry.calls
    return effects.map (⟨id, w.declared, phase, ·⟩)
  else return []

/-- The rest of the load, once the version is committed: `nexterm_init` and `nexterm_meta`. -/
def Wasm.setUp (w : Wasm) (id : ℕ) (apiVersion : UInt32) :
    Option (List Traced × Option PluginInstance) := do
  let host : HostState := ⟨[], apiVersion⟩
  if w.init.exported && !w.init.fuel then return ([], none)
  let inited ← w.enter id host .init w.init
  if !w.metadata.fuel then return (inited, none)
  -- the two buffers of the metadata lie above the stack
  let described ← if w.metadata.memorySize.any (64 * 1024 + 128 + 128 ≤ ·) then
    w.enter id host .metadata w.metadata else some []
  return (inited ++ described, some ⟨id, w.declared, w.path, apiVersion, host⟩)

/-- Parse, instantiate, start and initialize a plugin; without a plugin the load fails. -/
def loadBlocking (id : ℕ) (w : Wasm) : Option (List Traced × Option PluginInstance) := do
  if !w.valid || !w.start.fuel then return ([], none)
  let host : HostState := ⟨[], pluginApiVersion⟩
  let started ← w.enter id host .start w.start
  if w.start.entry.result = none || w.pages.any (· > maxMemoryPages) then return (started, none)
  if w.version.exported && !w.version.fuel then return (started, none)
  let asked ← w.enter id host .version w.version
  match w.detectVersion with
  | none => return (started ++ asked, none)
  | some apiVersion =>
    let (rest, plugin) ← w.setUp id apiVersion
    return (started ++ asked ++ rest, plugin)

/-! ## The manager -/

/-- The manager: the loaded plugins; `loads` numbers them for the trace. -/
structure PluginManager where
  plugins : List PluginInstance
  loads : ℕ

/-- A hook and its arguments. -/
inductive Hook
  | onOutput (paneId : UInt32) (data : List UInt8)
  | onCommand (cmd : List UInt8)

namespace Hook

def data : Hook → List UInt8
  | onOutput _ data => data
  | onCommand cmd => cmd

def phase : Hook → Phase
  | onOutput paneId _ => .onOutput paneId
  | onCommand _ => .onCommand

/-- The panes that a plugin of this version may touch during the call. -/
def scope : Hook → UInt32 → List UInt32
  | onOutput paneId _, apiVersion => if apiVersion ≥ 2 then [paneId] else []
  -- command hooks cannot write to any pane
  | onCommand _, _ => []

/-- The answer that ends the round: suppress, or handled. -/
def stop : Hook → Int32
  | onOutput _ _ => 1
  | onCommand _ => 0

end Hook

namespace PluginInstance

/-- What a hook hands to a plugin. -/
def payload (p : PluginInstance) (hook : Hook) : List UInt8 :=
  if p.apiVersion ≥ 2 then sanitizeForPlugin hook.data else hook.data

/-- The hook gets as far as calling the plugin. -/
def Called (p : PluginInstance) (hook : Hook) (call : Invocation) : Prop :=
  call.exported = true ∧ call.fuel = true ∧
    ∃ size, call.memorySize = some size ∧ 64 * 1024 + (p.payload hook).length ≤ size

instance (p : PluginInstance) (hook : Hook) (call : Invocation) : Decidable (p.Called hook call) :=
  match hsize : call.memorySize with
  | none => isFalse fun ⟨_, _, _, h, _⟩ => by rw [hsize] at h; cases h
  | some size =>
    decidable_of_iff (call.exported = true ∧ call.fuel = true ∧
      64 * 1024 + (p.payload hook).length ≤ size) (by simp [Called, hsize])

/-- The call of one plugin: the effects, the plugin after it, and whether the round ends. -/
def run (p : PluginInstance) (hook : Hook) (call : Invocation) :
    Option (List Traced × PluginInstance × Bool) := do
  if p.Called hook call then
    let host := { p.host with allowedPanes := hook.scope p.host.apiVersion }
    let effects ← runCalls host call.entry.calls
    -- cleanup: always clear the allow list afterwards
    return ((.call (p.payload hook) :: effects).map (⟨p.id, p.declared, hook.phase, ·⟩),
      { p with host := { host with allowedPanes := [] } }, call.entry.result = some hook.stop)
  else return ([], p, false)

end PluginInstance

/-- A hook over the plugins in order, up to the one that ends the round. -/
def runHook (hook : Hook) (behave : ℕ → Invocation) :
    List PluginInstance → Option (List Traced × List PluginInstance)
  | [] => some ([], [])
  | p :: ps => do
    let (called, p', stops) ← p.run hook (behave p.id)
    if stops then return (called, p' :: ps)
    let (rest, ps') ← runHook hook behave ps
    return (called ++ rest, p' :: ps')

/-- The operations of the manager, with the behaviour of the plugins. -/
inductive Op
  /-- A load, which may time out; its thread still runs to its end. -/
  | load (w : Wasm) (timely : Bool)
  | unload (path : String)
  | hook (hook : Hook) (behave : ℕ → Invocation)

namespace PluginManager

def step (m : PluginManager) : Op → Option (List Traced × PluginManager)
  | .load w timely => do
    let (trace, plugin) ← loadBlocking m.loads w
    let loaded := if timely then plugin.toList else []
    return (trace, ⟨m.plugins ++ loaded, m.loads + 1⟩)
  | .unload path => some ([], { m with plugins := m.plugins.filter (·.path ≠ path) })
  | .hook hook behave => do
    let (trace, plugins) ← runHook hook behave m.plugins
    return (trace, { m with plugins })

def run (m : PluginManager) : List Op → Option (List Traced × PluginManager)
  | [] => some ([], m)
  | op :: ops => do
    let (trace, m') ← m.step op
    let (rest, m'') ← m'.run ops
    return (trace ++ rest, m'')

end PluginManager

/-! ## The gates -/

/-- An effect stays inside what the version and the entry point allow: before the version is known
    nothing is written; a plugin that declares version 2 or later writes only to the pane of the
    output hook in progress; reads need version 3 and this pane, and stay inside their buffer. -/
def Traced.Gated (t : Traced) : Prop :=
  match t.effect with
  | .writePane paneId _ => t.phase ≠ .start ∧ t.phase ≠ .version ∧
      ∀ v, t.declared = some v → 2 ≤ v → t.phase = .onOutput paneId
  | .readFn paneId _ => t.phase = .onOutput paneId ∧ ∃ v, t.declared = some v ∧ 3 ≤ v
  | .store memorySize outMax start bytes =>
    start + bytes.length ≤ memorySize ∧ bytes.length ≤ outMax
  | .call _ => True

/-- Between the hooks no pane is allowed, and the gates know the declared version. -/
structure PluginInstance.Sound (p : PluginInstance) : Prop where
  allowed : p.host.allowedPanes = []
  version : p.host.apiVersion = p.declared.getD minSupportedApiVersion

/-- What the gates permit before the version is known. -/
theorem gated_before {effect : Effect} (h : HostState.Permits ⟨[], pluginApiVersion⟩ effect)
    (id : ℕ) (declared : Option UInt32) (phase : Phase) :
    Traced.Gated ⟨id, declared, phase, effect⟩ := by
  cases effect with
  | writePane paneId bytes =>
    rcases h with h | h
    · exact absurd h (by decide)
    · simp at h
  | readFn paneId kind => simp [HostState.Permits] at h
  | store memorySize outMax start bytes => exact h
  | call payload => exact h.elim

/-- What the gates permit afterwards, outside the output hook. -/
theorem gated_outside {effect : Effect} {declared : Option UInt32}
    (h : HostState.Permits ⟨[], declared.getD minSupportedApiVersion⟩ effect) (id : ℕ)
    {phase : Phase} (hstart : phase ≠ .start) (hversion : phase ≠ .version) :
    Traced.Gated ⟨id, declared, phase, effect⟩ := by
  cases effect with
  | writePane paneId bytes =>
    rcases h with h | h
    · refine ⟨hstart, hversion, fun v hv hle => ?_⟩
      rw [show declared = some v from hv] at h
      exact absurd hle (UInt32.not_le.2 h)
    · simp at h
  | readFn paneId kind => simp [HostState.Permits] at h
  | store memorySize outMax start bytes => exact h
  | call payload => exact h.elim

/-- What the gates permit during a hook. -/
theorem gated_hook {effect : Effect} {declared : Option UInt32} (hook : Hook)
    (h : HostState.Permits ⟨hook.scope (declared.getD minSupportedApiVersion),
      declared.getD minSupportedApiVersion⟩ effect) (id : ℕ) :
    Traced.Gated ⟨id, declared, hook.phase, effect⟩ := by
  cases hook with
  | onCommand cmd => exact gated_outside h id Phase.noConfusion Phase.noConfusion
  | onOutput pane data =>
    cases effect with
    | writePane paneId bytes =>
      refine ⟨Phase.noConfusion, Phase.noConfusion, fun v hv hle => ?_⟩
      rw [show declared = some v from hv] at h
      rcases h with h | h
      · exact absurd hle (UInt32.not_le.2 h)
      · rw [Hook.scope, Option.getD_some, if_pos hle, List.mem_singleton] at h
        rw [h]
        rfl
    | readFn paneId kind =>
      obtain ⟨hread, hmem⟩ := h
      have hscope : paneId = pane := by
        dsimp only [Hook.scope] at hmem
        split_ifs at hmem with hv
        · exact List.mem_singleton.1 hmem
        · simp at hmem
      refine ⟨by rw [hscope]; rfl, ?_⟩
      cases declared with
      | none =>
        have : ¬ minReadApiVersion ≤ minSupportedApiVersion := by decide
        exact absurd hread this
      | some v => exact ⟨v, rfl, hread⟩
    | store memorySize outMax start bytes => exact h
    | call payload => exact h.elim

/-- The version that a load commits is the declared one. -/
theorem Wasm.detectVersion_eq {w : Wasm} {v : UInt32} (h : w.detectVersion = some v) :
    v = w.declared.getD minSupportedApiVersion := by
  unfold detectVersion at h
  cases hw : w.declared with
  | none =>
    rw [hw] at h
    exact (Option.some.inj h).symm
  | some d =>
    rw [hw] at h
    dsimp only at h
    split_ifs at h
    exact (Option.some.inj h).symm

theorem Wasm.enter_spec (w : Wasm) (id : ℕ) {s : HostState} (phase : Phase) (call : Invocation)
    (h : ∀ e, s.Permits e → Traced.Gated ⟨id, w.declared, phase, e⟩) :
    ∃ trace, w.enter id s phase call = some trace ∧
      ∀ t ∈ trace, t.Gated ∧ t.plugin = id := by
  unfold enter
  split_ifs
  · obtain ⟨effects, hcalls, hpermits⟩ := runCalls_spec s call.entry.calls
    refine ⟨effects.map (⟨id, w.declared, phase, ·⟩), by simp [hcalls], fun t ht => ?_⟩
    obtain ⟨e, he, rfl⟩ := List.mem_map.1 ht
    exact ⟨h e (hpermits e he), rfl⟩
  · exact ⟨[], rfl, by simp⟩

theorem Wasm.setUp_spec (w : Wasm) (id : ℕ) {v : UInt32} (hv : w.detectVersion = some v) :
    ∃ trace plugin, w.setUp id v = some (trace, plugin) ∧
      (∀ t ∈ trace, t.Gated ∧ t.plugin = id) ∧ ∀ p ∈ plugin, p.Sound ∧ p.id = id := by
  have hversion := detectVersion_eq hv
  obtain ⟨inited, hinited, hgi⟩ := w.enter_spec id (s := ⟨[], v⟩) .init w.init
    fun e he => gated_outside (hversion ▸ he) id Phase.noConfusion Phase.noConfusion
  obtain ⟨described, hdescribed, hgd⟩ :=
    w.enter_spec id (s := ⟨[], v⟩) .metadata w.metadata
      fun e he => gated_outside (hversion ▸ he) id Phase.noConfusion Phase.noConfusion
  unfold setUp
  simp only [hinited, hdescribed, Option.pure_def, Option.bind_eq_bind, Option.bind_some]
  split_ifs
  · exact ⟨[], none, rfl, by simp, by simp⟩
  · exact ⟨inited, none, rfl, hgi, by simp⟩
  · refine ⟨inited ++ described, _, rfl, fun t ht => ?_, fun p hp => ?_⟩
    · exact (List.mem_append.1 ht).elim (hgi t) (hgd t)
    · rw [← Option.some.inj hp]
      exact ⟨⟨rfl, hversion⟩, rfl⟩
  · refine ⟨inited ++ [], _, rfl, fun t ht => hgi t (by simpa using ht), fun p hp => ?_⟩
    rw [← Option.some.inj hp]
    exact ⟨⟨rfl, hversion⟩, rfl⟩

/-- A load does what is allowed, and a loaded plugin is sound. -/
theorem loadBlocking_spec (id : ℕ) (w : Wasm) : ∃ trace plugin,
    loadBlocking id w = some (trace, plugin) ∧ (∀ t ∈ trace, t.Gated ∧ t.plugin = id) ∧
      ∀ p ∈ plugin, p.Sound ∧ p.id = id := by
  obtain ⟨started, hstarted, hgs⟩ := w.enter_spec id .start w.start
    fun e he => gated_before he id w.declared .start
  obtain ⟨asked, hasked, hga⟩ := w.enter_spec id .version w.version
    fun e he => gated_before he id w.declared .version
  have hsa : ∀ t ∈ started ++ asked, t.Gated ∧ t.plugin = id :=
    fun t ht => (List.mem_append.1 ht).elim (hgs t) (hga t)
  unfold loadBlocking
  simp only [hstarted, hasked, Option.pure_def, Option.bind_eq_bind, Option.bind_some]
  split_ifs
  · exact ⟨[], none, rfl, by simp, by simp⟩
  · exact ⟨started, none, rfl, hgs, by simp⟩
  · exact ⟨started, none, rfl, hgs, by simp⟩
  cases hv : w.detectVersion with
  | none => exact ⟨started ++ asked, none, rfl, hsa, by simp⟩
  | some v =>
    obtain ⟨rest, plugin, hrest, hgr, hsound⟩ := w.setUp_spec id hv
    refine ⟨started ++ asked ++ rest, plugin, by simp [hrest], fun t ht => ?_, hsound⟩
    exact (List.mem_append.1 ht).elim (hsa t) (hgr t)

theorem PluginInstance.run_spec {p : PluginInstance} (hp : p.Sound) (hook : Hook)
    (call : Invocation) : ∃ trace p' stops, p.run hook call = some (trace, p', stops) ∧
      (∀ t ∈ trace, t.Gated) ∧ p'.Sound := by
  unfold run
  split_ifs
  · obtain ⟨effects, hcalls, hpermits⟩ := runCalls_spec
      ⟨hook.scope p.host.apiVersion, p.host.apiVersion⟩ call.entry.calls
    refine ⟨_, { p with host := ⟨[], p.host.apiVersion⟩ }, _, by simp only [hcalls]; rfl,
      fun t ht => ?_, ⟨rfl, hp.version⟩⟩
    obtain ⟨e, he, rfl⟩ := List.mem_map.1 ht
    rcases List.mem_cons.1 he with rfl | he
    · trivial
    · have := hpermits e he
      rw [hp.version] at this
      exact gated_hook hook this p.id
  · exact ⟨[], p, false, rfl, by simp, hp⟩

theorem runHook_spec (hook : Hook) (behave : ℕ → Invocation) (ps : List PluginInstance)
    (hps : ∀ p ∈ ps, p.Sound) : ∃ trace ps', runHook hook behave ps = some (trace, ps') ∧
      (∀ t ∈ trace, t.Gated) ∧ ∀ p ∈ ps', p.Sound := by
  induction ps with
  | nil => exact ⟨[], [], rfl, by simp, by simp⟩
  | cons p ps ih =>
    obtain ⟨hp, hps⟩ := List.forall_mem_cons.1 hps
    obtain ⟨called, p', stops, hrun, hgc, hp'⟩ := PluginInstance.run_spec hp hook (behave p.id)
    obtain ⟨rest, ps', hrest, hgr, hps'⟩ := ih hps
    cases stops with
    | true => exact ⟨called, p' :: ps, by simp [runHook, hrun], hgc,
        List.forall_mem_cons.2 ⟨hp', hps⟩⟩
    | false =>
      refine ⟨called ++ rest, p' :: ps', by simp [runHook, hrun, hrest], fun t ht => ?_,
        List.forall_mem_cons.2 ⟨hp', hps'⟩⟩
      exact (List.mem_append.1 ht).elim (hgc t) (hgr t)

theorem PluginManager.step_spec (m : PluginManager) (hm : ∀ p ∈ m.plugins, p.Sound) (op : Op) :
    ∃ trace m', m.step op = some (trace, m') ∧ (∀ t ∈ trace, t.Gated) ∧
      ∀ p ∈ m'.plugins, p.Sound := by
  cases op with
  | load w timely =>
    obtain ⟨trace, plugin, hload, hgated, hsound⟩ := loadBlocking_spec m.loads w
    refine ⟨trace, _, by simp [step, hload]; rfl, fun t ht => (hgated t ht).1, fun p hp => ?_⟩
    rcases List.mem_append.1 hp with hp | hp
    · exact hm p hp
    · split_ifs at hp
      · exact (hsound p (by simpa using hp)).1
      · simp at hp
  | unload path =>
    exact ⟨[], _, rfl, by simp, fun p hp => hm p (List.mem_filter.1 hp).1⟩
  | hook hook behave =>
    obtain ⟨trace, ps', hrun, hgated, hsound⟩ := runHook_spec hook behave m.plugins hm
    exact ⟨trace, { m with plugins := ps' }, by simp [step, hrun], hgated, hsound⟩

theorem PluginManager.run_spec (m : PluginManager) (hm : ∀ p ∈ m.plugins, p.Sound)
    (ops : List Op) : ∃ trace m', m.run ops = some (trace, m') ∧ (∀ t ∈ trace, t.Gated) ∧
      ∀ p ∈ m'.plugins, p.Sound := by
  induction ops generalizing m with
  | nil => exact ⟨[], m, rfl, by simp, hm⟩
  | cons op ops ih =>
    obtain ⟨trace, m', hstep, hgated, hm'⟩ := m.step_spec hm op
    obtain ⟨rest, m'', hrun, hrest, hm''⟩ := ih m' hm'
    refine ⟨trace ++ rest, m'', by simp [run, hstep, hrun], fun t ht => ?_, hm''⟩
    exact (List.mem_append.1 ht).elim (hgated t) (hrest t)

/-- Whatever the plugins do, in any sequence of loads, unloads and hooks, no host call panics and
    every effect of the host calls is one that the gates allow. -/
theorem plugins_gated (ops : List Op) : ∃ trace m,
    PluginManager.run ⟨[], 0⟩ ops = some (trace, m) ∧ ∀ t ∈ trace, t.Gated := by
  obtain ⟨trace, m, hrun, hgated, -⟩ := PluginManager.run_spec ⟨[], 0⟩ (by simp) ops
  exact ⟨trace, m, hrun, hgated⟩

end Nexterm.Plugin
