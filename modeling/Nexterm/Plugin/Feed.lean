/-
  What a plugin gets to read of a pane, over many calls of the output hook.

  * `payloads`: the bytes that the hook hands to a plugin, in the order of the calls.
  * `feed`: the output of the pane, call by call, and whether the call gets to the plugin.
  * `Undivided`: no call starts inside an escape sequence in a way that matters, and no text is
    kept from the plugin; `payloads_sanitized_iff`.
-/
import Nexterm.Plugin.Host
import Mathlib.Data.List.Nodup

namespace Nexterm.Plugin

open Scan (Scanner)

/-- The bytes handed to a plugin as the output of a pane. -/
def payloads (id : ℕ) (pane : UInt32) (trace : List Traced) : List UInt8 :=
  trace.flatMap fun t =>
    match t.effect with
    | .call payload => if t.plugin = id ∧ t.phase = .onOutput pane then payload else []
    | _ => []

/-- The hook gets to the plugin: no plugin before it ends the round. -/
def reaches (hook : Hook) (behave : ℕ → Invocation) (id : ℕ) : List PluginInstance → Bool
  | [] => false
  | p :: ps =>
    if p.id = id then p.Called hook (behave p.id)
    else if p.Called hook (behave p.id) ∧ (behave p.id).entry.result = some hook.stop then false
    else reaches hook behave id ps

/-- What an operation adds to the output of a pane, and whether it gets to the plugin. -/
def Op.chunk (id : ℕ) (pane : UInt32) (m : PluginManager) : Op → List (Scanner.Piece UInt8)
  | .hook (.onOutput pane' data) behave =>
    if pane' = pane then [(data, reaches (.onOutput pane' data) behave id m.plugins)] else []
  | _ => []

/-- The output of a pane, call by call. -/
def feed (id : ℕ) (pane : UInt32) (m : PluginManager) : List Op → List (Scanner.Piece UInt8)
  | [] => []
  | op :: ops => op.chunk id pane m ++ ((m.step op).map fun r => feed id pane r.2 ops).getD []

/-- What an operation adds to the output of a pane. -/
def Op.output (pane : UInt32) : Op → List UInt8
  | .hook (.onOutput pane' data) _ => if pane' = pane then data else []
  | _ => []

/-- The places of the bytes that belong to no escape sequence. -/
def outsideSequences (input : List UInt8) : List Bool :=
  Scanner.mask { sanitizer with keeps := fun s b => s = .text ∧ b ≠ 0x1B } .text input

/-- The plugin reads each byte of text outside the sequences, and only these: a byte of text is
    handed over, and read outside a sequence by the scan that starts with its call, exactly when
    it is outside a sequence of the whole output. -/
def Undivided (ps : List (Scanner.Piece UInt8)) : Prop :=
  ∀ before data reached behind u b v, ps = before ++ (data, reached) :: behind →
    data = u ++ b :: v → isText b = true →
      (reached = true ∧ sanitizer.after .text u = .text ↔
        sanitizer.after .text (Scanner.whole before ++ u) = .text)

theorem undivided_iff (ps : List (Scanner.Piece UInt8)) : Undivided ps ↔ sanitizer.Lined ps := by
  constructor
  · rintro h before ⟨data, reached⟩ behind u b v hps hdata
    have := h before data reached behind u b v hps hdata
    by_cases hb : isText b = true
    · simpa [sanitizer, hb] using this hb
    · simp [sanitizer, hb]
  · intro h before data reached behind u b v hps hdata hb
    simpa [sanitizer, hb] using h before (data, reached) behind u b v hps hdata

/-- Of the bytes that a plugin reads, those of sequences are those that the sanitizer of the whole
    output drops. -/
theorem within_outsideSequences_iff (ps : List (Scanner.Piece UInt8)) :
    Scan.Within (sanitizer.cutMask ps) (outsideSequences (Scanner.whole ps)) ↔
      Scan.Within (sanitizer.cutMask ps) (sanitizer.mask .text (Scanner.whole ps)) := by
  refine forall_congr' fun i => ?_
  refine imp_congr_right fun hi => ?_
  obtain ⟨b, s, hb, hkeeps⟩ := sanitizer.exists_keeps_of_cutMask ps hi
  have htext : isText b = true := by
    simp only [sanitizer, decide_eq_true_eq] at hkeeps
    exact hkeeps.2
  have hesc : b ≠ 0x1B := by
    rintro rfl
    exact absurd htext (by decide)
  rw [outsideSequences, Scanner.mask_getElem?, Scanner.mask_getElem?, hb]
  simp only [Option.map_some, Option.some.injEq]
  simp [sanitizer, htext, hesc, Scanner.after]

/-! ## One hook -/

@[simp] theorem payloads_nil (id : ℕ) (pane : UInt32) : payloads id pane [] = [] := rfl

@[simp] theorem payloads_append (id : ℕ) (pane : UInt32) (trace trace' : List Traced) :
    payloads id pane (trace ++ trace') = payloads id pane trace ++ payloads id pane trace' :=
  List.flatMap_append

theorem payloads_of_plugin_ne {id : ℕ} {trace : List Traced} (h : ∀ t ∈ trace, t.plugin ≠ id)
    (pane : UInt32) : payloads id pane trace = [] := by
  refine List.flatMap_eq_nil_iff.2 fun t ht => ?_
  cases t.effect <;> simp [h t ht]

/-- The call of one plugin leaves the plugin as it was, and hands over one payload if it is made. -/
theorem PluginInstance.run_eq {p : PluginInstance} (hp : p.Sound) (hook : Hook)
    (call : Invocation) : ∃ trace, p.run hook call =
        some (trace, p, decide (p.Called hook call ∧ call.entry.result = some hook.stop)) ∧
      (∀ t ∈ trace, t.plugin = p.id) ∧ ∀ pane, payloads p.id pane trace =
        if hook.phase = .onOutput pane ∧ p.Called hook call then p.payload hook else [] := by
  unfold run
  split_ifs with hcalled
  · obtain ⟨effects, hcalls, hpermits⟩ := runCalls_spec
      ⟨hook.scope p.host.apiVersion, p.host.apiVersion⟩ call.entry.calls
    have hhost : (⟨[], p.host.apiVersion⟩ : HostState) = p.host := by rw [← hp.allowed]
    refine ⟨(Effect.call (p.payload hook) :: effects).map (⟨p.id, p.declared, hook.phase, ·⟩),
      by simp [hcalls, hcalled, hhost], ?_, fun pane => ?_⟩
    · intro t ht
      obtain ⟨e, -, rfl⟩ := List.mem_map.1 ht
      rfl
    · have hrest : payloads p.id pane
          (effects.map (⟨p.id, p.declared, hook.phase, ·⟩)) = [] := by
        refine List.flatMap_eq_nil_iff.2 fun t ht => ?_
        obtain ⟨e, he, rfl⟩ := List.mem_map.1 ht
        cases e with
        | call payload => exact (hpermits _ he).elim
        | _ => rfl
      rw [List.map_cons, ← List.singleton_append, payloads_append, hrest, List.append_nil]
      simp [payloads, hcalled]
  · exact ⟨[], by simp [hcalled], by simp, by simp [hcalled]⟩

/-- A hook over all plugins, seen by one of them of version 2 or later. -/
theorem runHook_eq (hook : Hook) (behave : ℕ → Invocation) {ps : List PluginInstance}
    (hsound : ∀ p ∈ ps, p.Sound) (hids : (ps.map (·.id)).Nodup) :
    ∃ trace, runHook hook behave ps = some (trace, ps) ∧
      (∀ t ∈ trace, ∃ p ∈ ps, t.plugin = p.id) ∧
      ∀ id, (∀ p ∈ ps, p.id = id → 2 ≤ p.apiVersion) → ∀ pane, payloads id pane trace =
        if hook.phase = .onOutput pane ∧ reaches hook behave id ps = true
        then sanitizeForPlugin hook.data else [] := by
  induction ps with
  | nil => exact ⟨[], rfl, by simp, by simp [reaches]⟩
  | cons p ps ih =>
    obtain ⟨hp, hsound⟩ := List.forall_mem_cons.1 hsound
    obtain ⟨hid, hids⟩ := List.nodup_cons.1 hids
    obtain ⟨called, hrun, hplugin, hpayload⟩ := PluginInstance.run_eq hp hook (behave p.id)
    obtain ⟨rest, hrest, hrestPlugin, hrestPayload⟩ := ih hsound hids
    set stops := decide (p.Called hook (behave p.id) ∧
      (behave p.id).entry.result = some hook.stop) with hstops
    have hcalled : ∀ t ∈ called, ∃ q ∈ p :: ps, t.plugin = q.id :=
      fun t ht => ⟨p, List.mem_cons_self, hplugin t ht⟩
    -- the call of the plugin looked at, and that of another one
    have hmine : ∀ id, p.id = id → 2 ≤ p.apiVersion → ∀ pane, payloads id pane called =
        if hook.phase = .onOutput pane ∧ reaches hook behave id (p :: ps) = true
        then sanitizeForPlugin hook.data else [] := by
      rintro id rfl hversion pane
      rw [hpayload, reaches, if_pos rfl, PluginInstance.payload, if_pos hversion]
      simp
    have hother : ∀ id, p.id ≠ id → ∀ pane, payloads id pane called = [] :=
      fun id hne => payloads_of_plugin_ne fun t ht heq => hne (by rw [← hplugin t ht, heq])
    cases hs : stops with
    | true =>
      have hstop := of_decide_eq_true (hstops.symm.trans hs)
      refine ⟨called, by simp [runHook, hrun, hs], hcalled, fun id hversion pane => ?_⟩
      by_cases hpid : p.id = id
      · exact hmine id hpid (hversion p List.mem_cons_self hpid) pane
      · rw [hother id hpid, reaches, if_neg hpid, if_pos hstop]
        simp
    | false =>
      have hstop := of_decide_eq_false (hstops.symm.trans hs)
      refine ⟨called ++ rest, by simp [runHook, hrun, hs, hrest], fun t ht => ?_,
        fun id hversion pane => ?_⟩
      · rcases List.mem_append.1 ht with ht | ht
        · exact hcalled t ht
        · obtain ⟨q, hq, hqt⟩ := hrestPlugin t ht
          exact ⟨q, List.mem_cons_of_mem _ hq, hqt⟩
      · obtain ⟨hpv, hversion⟩ := List.forall_mem_cons.1 hversion
        rw [payloads_append]
        by_cases hpid : p.id = id
        · have hrestNil : payloads id pane rest = [] := by
            refine payloads_of_plugin_ne (fun t ht heq => ?_) pane
            obtain ⟨q, hq, hqt⟩ := hrestPlugin t ht
            exact hid (List.mem_map.2 ⟨q, hq, hqt.symm.trans (heq.trans hpid.symm)⟩)
          rw [hrestNil, List.append_nil, hmine id hpid (hpv hpid)]
        · rw [hother id hpid, List.nil_append, hrestPayload id hversion, reaches, if_neg hpid,
            if_neg hstop]

/-! ## Many calls -/

/-- The plugins are told apart by their numbers. -/
structure Numbered (m : PluginManager) : Prop where
  sound : ∀ p ∈ m.plugins, p.Sound
  nodup : (m.plugins.map (·.id)).Nodup
  below : ∀ p ∈ m.plugins, p.id < m.loads

/-- The plugin was loaded and has version 2 or later. -/
structure Sanitized (id : ℕ) (m : PluginManager) : Prop where
  version : ∀ p ∈ m.plugins, p.id = id → 2 ≤ p.apiVersion
  loaded : id < m.loads

theorem numbered_empty : Numbered ⟨[], 0⟩ := ⟨by simp, List.nodup_nil, by simp⟩

theorem Numbered.sanitized {m : PluginManager} (hm : Numbered m) {p : PluginInstance}
    (hp : p ∈ m.plugins) (hversion : 2 ≤ p.apiVersion) : Sanitized p.id m := by
  refine ⟨fun q hq hqp => ?_, hm.below p hp⟩
  rwa [List.inj_on_of_nodup_map hm.nodup hq hp hqp]

/-- One operation: the plugins stay told apart, and what it hands to one of them. -/
theorem PluginManager.step_eq {m : PluginManager} (hm : Numbered m) (op : Op) :
    ∃ trace m', m.step op = some (trace, m') ∧ Numbered m' ∧ ∀ id, Sanitized id m →
      Sanitized id m' ∧ ∀ pane, payloads id pane trace = sanitizer.cut (op.chunk id pane m) := by
  cases op with
  | load w timely =>
    obtain ⟨trace, plugin, hload, htrace, hplugin⟩ := loadBlocking_spec m.loads w
    have hnew : ∀ p ∈ (if timely then plugin.toList else []), p.Sound ∧ p.id = m.loads := by
      intro p hp
      split_ifs at hp
      · exact hplugin p (by simpa using hp)
      · simp at hp
    refine ⟨trace, ⟨m.plugins ++ if timely then plugin.toList else [], m.loads + 1⟩,
      by simp [step, hload], ⟨fun p hp => ?_, ?_, fun p hp => ?_⟩, fun id hid => ⟨⟨?_, ?_⟩, ?_⟩⟩
    · exact (List.mem_append.1 hp).elim (hm.sound p) fun hp => (hnew p hp).1
    · rw [List.map_append]
      refine List.nodup_append.2 ⟨hm.nodup, ?_, fun i hi i' hi' => ?_⟩
      · split_ifs
        · cases plugin <;> simp
        · simp
      · obtain ⟨p, hp, rfl⟩ := List.mem_map.1 hi
        obtain ⟨q, hq, rfl⟩ := List.mem_map.1 hi'
        have := hm.below p hp
        have := (hnew q hq).2
        omega
    · rcases List.mem_append.1 hp with hp | hp
      · exact Nat.lt_succ_of_lt (hm.below p hp)
      · rw [(hnew p hp).2]
        exact Nat.lt_succ_self _
    · intro p hp hpid
      rcases List.mem_append.1 hp with hp | hp
      · exact hid.version p hp hpid
      · have := (hnew p hp).2
        have := hid.loaded
        omega
    · exact Nat.lt_succ_of_lt hid.loaded
    · refine payloads_of_plugin_ne fun t ht => ?_
      rw [(htrace t ht).2]
      exact Nat.ne_of_gt hid.loaded
  | unload path =>
    have hsub : ∀ p ∈ m.plugins.filter (·.path ≠ path), p ∈ m.plugins :=
      fun p hp => (List.mem_filter.1 hp).1
    exact ⟨[], _, rfl, ⟨fun p hp => hm.sound p (hsub p hp),
      hm.nodup.sublist ((List.filter_sublist).map _), fun p hp => hm.below p (hsub p hp)⟩,
      fun id hid => ⟨⟨fun p hp => hid.version p (hsub p hp), hid.loaded⟩, fun _ => rfl⟩⟩
  | hook hook behave =>
    obtain ⟨trace, hrun, -, hpayloads⟩ := runHook_eq hook behave hm.sound hm.nodup
    refine ⟨trace, m, by simp [step, hrun], hm, fun id hid => ⟨hid, fun pane => ?_⟩⟩
    rw [hpayloads id hid.version]
    cases hook with
    | onOutput pane' data =>
      dsimp only [Op.chunk]
      by_cases hpane : pane' = pane
      · simp [Scanner.cut, Hook.phase, Hook.data, hpane, sanitizeForPlugin_eq_out]
        rfl
      · simp [Scanner.cut, Hook.phase, hpane]
    | onCommand cmd => simp [Scanner.cut, Hook.phase, Op.chunk]

/-- What a plugin is handed as the output of a pane: each call sanitized on its own. -/
theorem payloads_run {m : PluginManager} (hm : Numbered m) (ops : List Op) :
    ∃ trace m', m.run ops = some (trace, m') ∧ Numbered m' ∧ ∀ id, Sanitized id m → ∀ pane,
      payloads id pane trace = sanitizer.cut (feed id pane m ops) ∧
      ops.flatMap (Op.output pane) = Scanner.whole (feed id pane m ops) := by
  induction ops generalizing m with
  | nil => exact ⟨[], m, rfl, hm, fun _ _ _ => ⟨rfl, rfl⟩⟩
  | cons op ops ih =>
    obtain ⟨trace, m', hstep, hm', hpayloads⟩ := m.step_eq hm op
    obtain ⟨rest, m'', hrun, hm'', hrest⟩ := ih hm'
    refine ⟨trace ++ rest, m'', by simp [PluginManager.run, hstep, hrun], hm'',
      fun id hid pane => ?_⟩
    obtain ⟨hid', hchunk⟩ := hpayloads id hid
    obtain ⟨hcut, hwhole⟩ := hrest id hid' pane
    constructor
    · rw [payloads_append, hchunk, hcut, feed, hstep]
      exact List.flatMap_append.symm
    · have hop : op.output pane = Scanner.whole (op.chunk id pane m) := by
        rcases op with _ | _ | ⟨⟨pane', data⟩ | _, behave⟩
        · rfl
        · rfl
        · dsimp only [Op.output, Op.chunk]
          split_ifs <;> simp [Scanner.whole]
        · rfl
      rw [List.flatMap_cons, hop, hwhole, feed, hstep]
      exact (Scanner.whole_append _ _).symm

/-- However the output of a pane comes in: a plugin of version 2 or later reads the sanitized
    output, and no byte of an escape sequence, if and only if the calls leave the sequences whole
    as far as text is concerned. -/
theorem payloads_sanitized_iff {past ops : List Op} {m m' : PluginManager}
    {trace trace' : List Traced} (hpast : PluginManager.run ⟨[], 0⟩ past = some (trace, m))
    (hrun : m.run ops = some (trace', m')) {p : PluginInstance} (hp : p ∈ m.plugins)
    (hversion : 2 ≤ p.apiVersion) (pane : UInt32) :
    payloads p.id pane trace' = sanitizeForPlugin (ops.flatMap (Op.output pane)) ∧
        Scan.Within (sanitizer.cutMask (feed p.id pane m ops))
          (outsideSequences (ops.flatMap (Op.output pane))) ↔
      Undivided (feed p.id pane m ops) := by
  obtain ⟨_, _, hpast', hm, -⟩ := payloads_run numbered_empty past
  rw [hpast] at hpast'
  obtain ⟨rfl, rfl⟩ := Prod.mk.inj (Option.some.inj hpast')
  obtain ⟨_, _, hrun', -, hfeed⟩ := payloads_run hm ops
  rw [hrun] at hrun'
  obtain ⟨rfl, rfl⟩ := Prod.mk.inj (Option.some.inj hrun')
  obtain ⟨hpayloads, hwhole⟩ := hfeed p.id (hm.sanitized hp hversion) pane
  rw [hpayloads, hwhole, sanitizeForPlugin_eq_out, within_outsideSequences_iff, undivided_iff]
  exact sanitizer.cut_eq_iff (feed p.id pane m ops)

/-- An entry point that returns at once. -/
def returning (result : Int32) : Invocation := ⟨true, some (2 * 64 * 1024), true, ⟨[], some result⟩⟩

/-- A plugin of version 2 that does nothing. -/
def listener : Wasm :=
  ⟨"listener.wasm", true, returning 0, some 2, returning 2, returning 0, returning 0⟩

/-- The instance of `listener` that is loaded first. -/
def listening : PluginInstance := ⟨0, some 2, "listener.wasm", 2, ⟨[], 2⟩⟩

/-- A clipboard sequence (OSC 52) that arrives in two parts. -/
def clipboardParts : List Op :=
  [.hook (.onOutput 1 [0x1B, 0x5D, 0x35, 0x32, 0x3B, 0x63, 0x3B, 0x63]) fun _ => returning 0,
    .hook (.onOutput 1 [0x32, 0x56, 0x6A, 0x07]) fun _ => returning 0]

theorem run_listener : PluginManager.run ⟨[], 0⟩ [.load listener true] =
    some ([], ⟨[listening], 1⟩) := rfl

theorem feed_hook {m : PluginManager} (hm : Numbered m) (id : ℕ) (pane : UInt32) (hook : Hook)
    (behave : ℕ → Invocation) (ops : List Op) : feed id pane m (.hook hook behave :: ops) =
      (Op.hook hook behave).chunk id pane m ++ feed id pane m ops := by
  obtain ⟨trace, hrun, -⟩ := runHook_eq hook behave hm.sound hm.nodup
  have hstep : m.step (.hook hook behave) = some (trace, m) := by simp [PluginManager.step, hrun]
  rw [feed, hstep]
  rfl

theorem numbered_listening : Numbered ⟨[listening], 1⟩ := by
  refine ⟨fun p hp => ?_, by simp, fun p hp => ?_⟩
  · rw [List.mem_singleton.1 hp]
    exact ⟨rfl, rfl⟩
  · rw [List.mem_singleton.1 hp]
    exact Nat.one_pos

theorem feed_clipboardParts : feed 0 1 ⟨[listening], 1⟩ clipboardParts =
    [([0x1B, 0x5D, 0x35, 0x32, 0x3B, 0x63, 0x3B, 0x63], true), ([0x32, 0x56, 0x6A, 0x07], true)] := by
  have hcalled : ∀ data : List UInt8, (sanitizer.out .text data).length ≤ 64 * 1024 →
      reaches (.onOutput 1 data) (fun _ => returning 0) 0 [listening] = true := by
    intro data hdata
    refine decide_eq_true ⟨rfl, rfl, _, rfl, ?_⟩
    rw [PluginInstance.payload, if_pos (by decide), sanitizeForPlugin_eq_out]
    dsimp only [Hook.data]
    omega
  rw [clipboardParts, feed_hook numbered_listening, feed_hook numbered_listening, Op.chunk,
    Op.chunk, if_pos rfl, if_pos rfl, hcalled _ (by decide), hcalled _ (by decide)]
  rfl

/-- The rest of a clipboard sequence is handed over as text. -/
theorem not_sanitized_split : ∃ m trace m' trace', ∃ p ∈ m.plugins, 2 ≤ p.apiVersion ∧
    PluginManager.run ⟨[], 0⟩ [.load listener true] = some (trace, m) ∧
    m.run clipboardParts = some (trace', m') ∧
    payloads p.id 1 trace' ≠ sanitizeForPlugin (clipboardParts.flatMap (Op.output 1)) := by
  obtain ⟨trace', m', hrun, -, hfeed⟩ := payloads_run numbered_listening clipboardParts
  have hlistening : listening ∈ [listening] := List.mem_singleton_self _
  obtain ⟨hpayloads, hwhole⟩ := hfeed 0 (numbered_listening.sanitized hlistening (by decide)) 1
  refine ⟨_, _, m', trace', listening, hlistening, by decide, run_listener, hrun, ?_⟩
  rw [show listening.id = 0 from rfl, hpayloads, hwhole, sanitizeForPlugin_eq_out,
    feed_clipboardParts]
  decide

theorem payloads_sanitized_iff_listening : ∃ m' trace',
    PluginManager.run ⟨[listening], 1⟩ clipboardParts = some (trace', m') ∧
      (payloads 0 1 trace' = sanitizeForPlugin (clipboardParts.flatMap (Op.output 1)) ∧
          Scan.Within (sanitizer.cutMask (feed 0 1 ⟨[listening], 1⟩ clipboardParts))
            (outsideSequences (clipboardParts.flatMap (Op.output 1))) ↔
        Undivided (feed 0 1 ⟨[listening], 1⟩ clipboardParts)) := by
  obtain ⟨trace', m', hrun, -⟩ := payloads_run numbered_listening clipboardParts
  exact ⟨m', trace', hrun, payloads_sanitized_iff run_listener hrun
    (List.mem_singleton_self listening) (by decide) 1⟩

end Nexterm.Plugin
