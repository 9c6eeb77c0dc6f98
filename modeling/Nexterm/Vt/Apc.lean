/-
  APC sequences are cut out of the byte stream before `vte` sees it (`lib.rs`, `VtParser::advance`).

  * `Delivered`, `VtParser.deliveries`: what the parser hands on, byte by byte.
  * `VtParser.terminal_advance`: the state of `vte` and the screen depend on nothing else.
  * `demux`: what a byte stream means, read off the whole stream.
  * `Legible`: no run of ESC bytes hides an introducer or a terminator.
  * `VtParser.deliveries_chunks`: however the stream is cut, the parser delivers what it means.
-/
import Nexterm.Vt.Dirty

namespace Nexterm.Vt

/-- What the parser hands on: a byte to `vte`, or the payload of a segment to the graphics
    handler. -/
inductive Delivered
  | vte (byte : UInt8)
  | kitty (payload : List UInt8)
  deriving DecidableEq, Repr

/-- The bytes that go to `vte`. -/
def vteBytes (ds : List Delivered) : List UInt8 :=
  ds.filterMap fun
    | .vte byte => some byte
    | .kitty _ => none

/-- The state of `vte` and the screen after one more byte. -/
def Vte.feed (V : Vte) (t : V.State × Screen) (byte : UInt8) : V.State × Screen :=
  ((V.advance t.1 byte).1, (V.advance t.1 byte).2.foldl (Screen.perform V) t.2)

/-! ## What a stream means -/

/-- The payload so far of the segment that is open, if one is. -/
abbrev Segment := Option (List UInt8)

/-- A byte of an open segment; the segment is dropped if the byte does not fit. -/
def Segment.add : Segment → UInt8 → Segment
  | none, _ => none
  | some payload, byte => if payload.length < maxApcBufLen then some (payload ++ [byte]) else none

/-- A byte goes to `vte` if no segment is open. -/
def Segment.pass : Segment → UInt8 → List Delivered
  | none, byte => [.vte byte]
  | some _, _ => []

/-- The meaning of a stream.  ESC `_` opens a segment, also inside another one, which it discards;
    the next ESC `\` closes it.  All other bytes belong to the segment or go to `vte`. -/
def demux : Segment → List UInt8 → List Delivered
  | _, [] => []
  | m, [byte] => m.pass byte
  | m, a :: b :: rest =>
    if a = 0x1b ∧ b = 0x5f then demux (some []) rest
    else
      match m with
      | some payload =>
        if a = 0x1b ∧ b = 0x5c then .kitty payload :: demux none rest
        else demux (Segment.add (some payload) a) (b :: rest)
      | none => .vte a :: demux none (b :: rest)

/-- The stream is read ESC by ESC, each with the byte after it.  When that byte is an ESC too, it
    does not introduce anything, nor terminate the open segment; and no segment overflows at an
    ESC. -/
def Legible : Segment → List UInt8 → Prop
  | _, [] => True
  | _, [_] => True
  | m, a :: b :: rest =>
    if a ≠ 0x1b then Legible (m.add a) (b :: rest)
    else if b = 0x5f then Legible (some []) rest
    else if b = 0x5c ∧ m.isSome then Legible none rest
    else
      (b = 0x1b → rest.head? ≠ some 0x5f ∧ (m.isSome → rest.head? ≠ some 0x5c)) ∧
        (∀ payload, m = some payload → payload.length < maxApcBufLen) ∧
          Legible ((m.add a).add b) rest

/-- A byte that neither opens nor closes a segment. -/
theorem demux_cons {m : Segment} {a : UInt8} {rest : List UInt8}
    (h : a = 0x1b → rest.head? ≠ some 0x5f ∧ (m.isSome → rest.head? ≠ some 0x5c)) :
    demux m (a :: rest) = m.pass a ++ demux (m.add a) rest := by
  cases rest with
  | nil => simp [demux]
  | cons b rest =>
    have h₁ : ¬(a = 0x1b ∧ b = 0x5f) := by
      rintro ⟨ha, rfl⟩
      exact (h ha).1 rfl
    cases m with
    | none => simp [demux, h₁, Segment.pass, Segment.add]
    | some payload =>
      have h₂ : ¬(a = 0x1b ∧ b = 0x5c) := by
        rintro ⟨ha, rfl⟩
        exact (h ha).2 rfl rfl
      simp [demux, h₁, h₂, Segment.pass]

namespace VtParser

variable {V : Vte}

/-! ## What the parser delivers -/

/-- What is handed on when a byte arrives: the branches of `advanceByte`. -/
def delivered (p : VtParser V) (byte : UInt8) : List Delivered :=
  if p.apcPendingEsc then
    if byte = 0x5f then []
    else if byte = 0x5c ∧ p.apcActive then [.kitty p.apcBuf]
    else if p.apcActive then []
    else [.vte 0x1b, .vte byte]
  else if byte = 0x1b then []
  else if p.apcActive then []
  else [.vte byte]

/-- What is handed on during one call of `advance`. -/
def deliveries (p : VtParser V) : List UInt8 → List Delivered
  | [] => []
  | byte :: bytes => p.delivered byte ++ (p.advanceByte byte).deliveries bytes

/-- What is handed on during several calls. -/
def chunkDeliveries (p : VtParser V) : List (List UInt8) → List Delivered
  | [] => []
  | chunk :: chunks => p.deliveries chunk ++ (p.advance chunk).chunkDeliveries chunks

/-- The ESC at the end of the stream that waits for the next byte. -/
def held (p : VtParser V) : List Delivered :=
  if p.apcPendingEsc ∧ !p.apcActive then [.vte 0x1b] else []

/-- The state of `vte` and the screen. -/
def terminal (p : VtParser V) : V.State × Screen := (p.parser, p.screen)

/-- The segment that is open. -/
def segment (p : VtParser V) : Segment := if p.apcActive then some p.apcBuf else none

theorem apcPush_terminal (p : VtParser V) (byte : UInt8) :
    (p.apcPush byte).terminal = p.terminal := by
  unfold apcPush
  split_ifs <;> rfl

theorem terminal_advanceByte (p : VtParser V) (byte : UInt8) :
    (p.advanceByte byte).terminal = (vteBytes (p.delivered byte)).foldl V.feed p.terminal := by
  unfold advanceByte delivered
  dsimp only
  split_ifs
  · rfl
  · rfl
  · rw [apcPush_terminal, apcPush_terminal]
    rfl
  · rfl
  · rfl
  · rw [apcPush_terminal]
    rfl
  · rfl

/-- What reaches `vte` and the screen is what is delivered to it. -/
theorem terminal_advance : ∀ (bytes : List UInt8) (p : VtParser V),
    (p.advance bytes).terminal = (vteBytes (p.deliveries bytes)).foldl V.feed p.terminal
  | [], _ => rfl
  | byte :: bytes, p => by
    have hrest := terminal_advance bytes (p.advanceByte byte)
    rw [terminal_advanceByte] at hrest
    rw [deliveries, vteBytes, List.filterMap_append, List.foldl_append]
    exact hrest

/-! ## Chunks -/

theorem deliveries_append : ∀ (bytes bytes' : List UInt8) (p : VtParser V),
    p.deliveries (bytes ++ bytes') = p.deliveries bytes ++ (p.advance bytes).deliveries bytes'
  | [], _, _ => rfl
  | byte :: bytes, bytes', p => by
    rw [List.cons_append, deliveries, deliveries_append bytes bytes', deliveries,
      List.append_assoc]
    rfl

/-- The chunks do not matter. -/
theorem chunks_flatten : ∀ (chunks : List (List UInt8)) (p : VtParser V),
    p.chunkDeliveries chunks = p.deliveries chunks.flatten ∧
      chunks.foldl advance p = p.advance chunks.flatten
  | [], _ => ⟨rfl, rfl⟩
  | chunk :: chunks, p => by
    obtain ⟨hdel, hadv⟩ := chunks_flatten chunks (p.advance chunk)
    rw [List.flatten_cons, deliveries_append, ← hdel]
    refine ⟨rfl, ?_⟩
    rw [List.foldl_cons, hadv, advance, advance, advance, List.foldl_append]

/-! ## The parser against the meaning of the stream -/

theorem segment_apcPush {p : VtParser V} (hactive : p.apcActive = true) (byte : UInt8) :
    (p.apcPush byte).segment = p.segment.add byte := by
  have hseg : p.segment = some p.apcBuf := if_pos hactive
  rw [hseg, Segment.add]
  unfold apcPush
  by_cases hlen : p.apcBuf.length ≥ maxApcBufLen
  · rw [if_pos hlen, if_neg (not_lt.2 hlen)]
    rfl
  · rw [if_neg hlen, if_pos (not_le.1 hlen)]
    exact if_pos hactive

theorem apcPush_pending (p : VtParser V) (byte : UInt8) :
    (p.apcPush byte).apcPendingEsc = p.apcPendingEsc := by
  unfold apcPush
  split_ifs <;> rfl

/-- A byte that is not an ESC, while none is held. -/
theorem advanceByte_plain {p : VtParser V} (hp : p.apcPendingEsc = false) {byte : UInt8}
    (hbyte : byte ≠ 0x1b) :
    p.delivered byte = p.segment.pass byte ∧
      (p.advanceByte byte).segment = p.segment.add byte ∧
        (p.advanceByte byte).apcPendingEsc = false := by
  unfold delivered advanceByte
  simp only [hp, hbyte, Bool.false_eq_true, if_false]
  cases hactive : p.apcActive with
  | true =>
    have hseg : p.segment = some p.apcBuf := if_pos hactive
    simp only [if_true]
    refine ⟨?_, segment_apcPush hactive byte, (apcPush_pending p byte).trans hp⟩
    rw [hseg, Segment.pass]
  | false =>
    have hseg : p.segment = none := if_neg (by simp [hactive])
    simp only [Bool.false_eq_true, if_false]
    refine ⟨by rw [hseg, Segment.pass], ?_, hp⟩
    rw [hseg, Segment.add]
    exact if_neg (by simp [feed, hactive])

/-- An ESC and the byte after it. -/
theorem deliveries_esc {p : VtParser V} (hp : p.apcPendingEsc = false) (byte : UInt8)
    (rest : List UInt8) :
    p.deliveries (0x1b :: byte :: rest) =
      { p with apcPendingEsc := true }.delivered byte ++
        ({ p with apcPendingEsc := true }.advanceByte byte).deliveries rest := by
  have hesc : p.advanceByte 0x1b = { p with apcPendingEsc := true } := by
    simp [advanceByte, hp]
  have hnone : p.delivered 0x1b = [] := by
    simp [delivered, hp]
  rw [deliveries, deliveries, hesc, hnone, List.nil_append]

/-- An ESC and a byte with which it does not form an introducer or a terminator. -/
theorem advanceByte_pair {p : VtParser V} (hp : p.apcPendingEsc = true) {byte : UInt8}
    (h₁ : byte ≠ 0x5f) (h₂ : ¬(byte = 0x5c ∧ p.segment.isSome))
    (hfits : ∀ payload, p.segment = some payload → payload.length < maxApcBufLen) :
    p.delivered byte = p.segment.pass 0x1b ++ (p.segment.add 0x1b).pass byte ∧
      (p.advanceByte byte).segment = (p.segment.add 0x1b).add byte ∧
        (p.advanceByte byte).apcPendingEsc = false := by
  obtain ⟨parser, screen, active, buf, pending⟩ := p
  obtain rfl : pending = true := hp
  unfold delivered advanceByte
  cases active with
  | true =>
    have hlen : buf.length < maxApcBufLen := hfits buf rfl
    have hterm : byte ≠ 0x5c := by
      rintro rfl
      exact h₂ ⟨rfl, rfl⟩
    have hroom : Segment.add (some buf) 0x1b = some (buf ++ [0x1b]) := if_pos hlen
    have hpush : (⟨parser, screen, true, buf, false⟩ : VtParser V).apcPush 0x1b =
        ⟨parser, screen, true, buf ++ [0x1b], false⟩ := if_neg (not_le.2 hlen)
    simp only [h₁, hterm, false_and, if_true, if_false]
    rw [hpush, apcPush_pending, segment_apcPush rfl]
    -- the ESC fits, so the segment is still open for the second byte
    show [] = [] ++ (Segment.add (some buf) 0x1b).pass byte ∧
      Segment.add (some (buf ++ [0x1b])) byte = (Segment.add (some buf) 0x1b).add byte ∧ false = false
    rw [hroom]
    exact ⟨rfl, rfl, rfl⟩
  | false =>
    simp only [h₁, Bool.false_eq_true, and_false, if_true, if_false]
    exact ⟨rfl, rfl, rfl⟩

/-- **What the parser delivers is what the stream means.**  The induction reads the stream as the
    parser does: an ESC with the byte after it, any other byte alone. -/
theorem deliveries_demux : ∀ (bytes : List UInt8) {p : VtParser V}, p.apcPendingEsc = false →
    Legible p.segment bytes → p.deliveries bytes ++ (p.advance bytes).held = demux p.segment bytes
  | [], p, hp, _ => by
    simp [deliveries, advance, held, hp, demux]
  | [a], p, hp, _ => by
    by_cases ha : a = 0x1b
    · subst ha
      cases hactive : p.apcActive <;>
        simp [deliveries, delivered, advance, advanceByte, held, hp, demux, segment, hactive,
          Segment.pass]
    · obtain ⟨hdel, -, hpend⟩ := advanceByte_plain hp ha
      simp [deliveries, hdel, advance, held, hpend, demux]
  | a :: b :: rest, p, hp, hleg => by
    unfold Legible at hleg
    by_cases ha : a = 0x1b
    swap
    · rw [if_pos ha] at hleg
      obtain ⟨hdel, hseg, hpend⟩ := advanceByte_plain hp ha
      have ih := deliveries_demux (b :: rest) hpend (by rwa [hseg])
      rw [demux_cons fun h => absurd h ha, ← hseg, ← ih, deliveries, hdel, List.append_assoc]
      rfl
    subst ha
    have hadv : p.advance (0x1b :: b :: rest) =
        ({ p with apcPendingEsc := true }.advanceByte b).advance rest := by
      simp [advance, advanceByte, hp]
    rw [if_neg (not_not.2 rfl)] at hleg
    rw [deliveries_esc hp, hadv, List.append_assoc]
    by_cases hopen : b = 0x5f
    · -- an introducer
      subst hopen
      rw [if_pos rfl] at hleg
      have ih := deliveries_demux rest
        (p := { p with apcPendingEsc := false, apcActive := true, apcBuf := [] }) rfl hleg
      simpa [delivered, advanceByte, demux, segment] using ih
    rw [if_neg hopen] at hleg
    by_cases hclose : b = 0x5c ∧ p.segment.isSome
    · -- a terminator
      rw [if_pos hclose] at hleg
      obtain ⟨rfl, hsome⟩ := hclose
      have hactive : p.apcActive = true := by
        by_contra hoff
        simp [segment, hoff] at hsome
      have ih := deliveries_demux rest
        (p := { p with apcPendingEsc := false, apcActive := false, apcBuf := [] }) rfl hleg
      simpa [delivered, advanceByte, demux, segment, hactive] using ih
    rw [if_neg hclose] at hleg
    obtain ⟨hhide, hfits, hleg⟩ := hleg
    obtain ⟨hdel, hseg, hpend⟩ := advanceByte_pair (p := { p with apcPendingEsc := true }) rfl
      hopen hclose hfits
    have ih := deliveries_demux rest hpend (by rw [hseg]; exact hleg)
    have hsome : (p.segment.add 0x1b).isSome → p.segment.isSome := by
      cases p.segment <;> simp [Segment.add]
    rw [ih, hdel, hseg, List.append_assoc]
    rw [demux_cons fun _ => ⟨by simpa using hopen, fun h => by simpa [h] using hclose⟩,
      demux_cons fun hb => ⟨(hhide hb).1, fun h => (hhide hb).2 (hsome h)⟩]
    rfl

/-- **APC demultiplexing.**  What is delivered does not depend on where the stream is cut; it
    determines the state of `vte` and the screen; and it is what the stream means, where an ESC at
    the end, which the parser still holds, counts as delivered. -/
theorem deliveries_chunks (V : Vte) (cols rows : ℕ) (chunks : List (List UInt8)) :
    let p := new V cols rows
    (∀ chunks' : List (List UInt8), chunks'.flatten = chunks.flatten →
      p.chunkDeliveries chunks' = p.chunkDeliveries chunks ∧
        chunks'.foldl advance p = chunks.foldl advance p) ∧
    (chunks.foldl advance p).terminal =
      (vteBytes (p.chunkDeliveries chunks)).foldl V.feed p.terminal ∧
    (Legible none chunks.flatten →
      p.chunkDeliveries chunks ++ (chunks.foldl advance p).held = demux none chunks.flatten) := by
  intro p
  obtain ⟨hdel, hadv⟩ := chunks_flatten chunks p
  rw [hdel, hadv]
  refine ⟨?_, terminal_advance _ _, fun hleg => deliveries_demux _ (p := p) rfl hleg⟩
  intro chunks' hflat
  rw [← hflat]
  exact chunks_flatten chunks' p

/-- A segment that is cut inside its terminator, and a control sequence after it. -/
theorem deliveries_chunks_cut :
    let p := new plainVte 80 24
    let chunks := [[0x1b, 0x5f, 0x47, 0x1b], [0x5c, 0x1b, 0x5b, 0x48]]
    p.chunkDeliveries chunks ++ (chunks.foldl advance p).held =
      [.kitty [0x47], .vte 0x1b, .vte 0x5b, .vte 0x48] :=
  (deliveries_chunks plainVte 80 24 [[0x1b, 0x5f, 0x47, 0x1b], [0x5c, 0x1b, 0x5b, 0x48]]).2.2
    (by simp [Legible, Segment.add, maxApcBufLen])

/-- An introducer inside a segment starts the segment anew. -/
theorem deliveries_restart :
    (new plainVte 80 24).deliveries [0x1b, 0x5f, 0x61, 0x1b, 0x5f, 0x62, 0x1b, 0x5c] ≠
      [.kitty [0x61, 0x1b, 0x5f, 0x62]] := by
  decide +kernel

end VtParser

end Nexterm.Vt
