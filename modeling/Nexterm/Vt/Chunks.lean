/-
  Chunked Kitty transfers (`handle_kitty_apc` in `screen.rs`).

  * `Transfer`: chunks with `m=1` and a last one without; `single`: the same command in one chunk.
  * `Pending.holding`: the accumulator has the chunks since the last discard; a chunk is one step
    (`handle_more`), and the last chunk registers what is held (`handle_last`).
  * `Transfer.EqualsSingle`: a transfer within the limit is as good as a single chunk, one over the
    limit registers nothing, and the accumulator is empty afterwards.
  * `equalsSingle_iff`: it is so unless the chunks after a discard are an image on their own.
-/
import Nexterm.Vt.Caps
import Nexterm.Lib.Join

namespace Nexterm.Vt

/-! ## Transfers -/

/-- The header of a chunk (what comes after the `G`), up to the first `;`. -/
def header (chunk : List UInt8) : List UInt8 := chunk.takeWhile (· ≠ 0x3b)

/-- The payload of a chunk. -/
def body (chunk : List UInt8) : List UInt8 := (chunk.dropWhile (· ≠ 0x3b)).tail

/-- `m=1`. -/
def moreFlag : List UInt8 := [0x6d, 0x3d, 0x31]

/-- More chunks follow. -/
def More (chunk : List UInt8) : Prop := moreFlag ∈ (header chunk).splitOn 0x2c

instance : DecidablePred More := fun chunk =>
  inferInstanceAs (Decidable (moreFlag ∈ (header chunk).splitOn 0x2c))

/-- The payload of several chunks. -/
def combined (chunks : List (List UInt8)) : List UInt8 := chunks.flatMap body

/-- A payload in chunks: `m=1` in all headers but the last one. -/
structure Transfer where
  init : List (List UInt8)
  last : List UInt8
  more : ∀ chunk ∈ init, More chunk
  final : ¬More last

namespace Transfer

def chunks (t : Transfer) : List (List UInt8) := t.init ++ [t.last]

/-- The length of the whole payload. -/
def total (t : Transfer) : ℕ := (combined t.chunks).length

/-- The fields of the header of the first chunk, with `m=0` for `m=1`. -/
def fields (t : Transfer) : List (List UInt8) :=
  ((header (t.init.headD t.last)).splitOn 0x2c).map fun field =>
    if field = moreFlag then [0x6d, 0x3d, 0x30] else field

/-- The header of the command in one chunk. -/
def command (t : Transfer) : List UInt8 := [0x2c].intercalate t.fields

/-- The same command sent in one chunk. -/
def single (t : Transfer) : List UInt8 := t.command ++ 0x3b :: combined t.chunks

end Transfer

/-- Nothing is pending of an earlier transfer. -/
structure Pending.Idle (q : Pending) : Prop where
  params : q.kittyChunkParams = none
  payload : q.kittyChunkPayload = []

/-- The queues after some chunks. -/
def Pending.receive (q : Pending) (s : Screen) (chunks : List (List UInt8)) : Pending :=
  chunks.foldl (fun q chunk => q.handleKittyApc s (0x47 :: chunk)) q

/-- **The transfer equals a single chunk**: within the limit, it does what the command does in one
    chunk; over the limit, it registers no image; the accumulator is empty again. -/
def Transfer.EqualsSingle (t : Transfer) : Prop :=
  ∀ (s : Screen) (q : Pending), q.Idle →
    (t.total ≤ Pending.maxKittyChunkLen →
      q.receive s t.chunks = q.receive s [t.single]) ∧
    (Pending.maxKittyChunkLen < t.total → (q.receive s t.chunks).pendingImages = q.pendingImages) ∧
    (q.receive s t.chunks).Idle

/-! ## What is held -/

/-- The chunks that are held after one more: none of them over the limit. -/
def hold (held : List (List UInt8)) (chunk : List UInt8) : List (List UInt8) :=
  if (combined (held ++ [chunk])).length > Pending.maxKittyChunkLen then [] else held ++ [chunk]

/-- The image of the command of the first chunk with the payload of all. -/
def decodeChunks (chunks : List (List UInt8)) : Option DecodedImage :=
  decodeKitty (0x47 :: (header (chunks.headD []) ++ 0x3b :: combined chunks))

namespace Transfer

/-- The chunks after the last discard. -/
def rest (t : Transfer) : List (List UInt8) := t.init.foldl hold [] ++ [t.last]

/-- Several chunks that are over the limit with the last one. -/
def Discarded (t : Transfer) : Prop :=
  1 < t.rest.length ∧ Pending.maxKittyChunkLen < (combined t.rest).length

end Transfer

namespace Pending

/-- The accumulator with the chunks that are held. -/
def holding (q : Pending) : List (List UInt8) → Pending
  | [] => q
  | first :: held =>
    { q with
      kittyChunkParams := some (header first)
      kittyChunkPayload := combined (first :: held) }

/-- Registers an image, if there is one. -/
def register (q : Pending) (s : Screen) (img : Option DecodedImage) : Pending :=
  img.elim q (q.placeImage s.cursor)

variable {q : Pending}

/-- The accumulator emptied. -/
def cleared (q : Pending) : Pending := { q with kittyChunkPayload := [], kittyChunkParams := none }

theorem receiveKitty_more {chunk : List UInt8} (hmore : More chunk) :
    q.receiveKitty (0x47 :: chunk) =
      (if maxKittyChunkLen < q.kittyChunkPayload.length + (body chunk).length then q.cleared
      else
        { q with
          kittyChunkParams := q.kittyChunkParams <|> some (header chunk)
          kittyChunkPayload := q.kittyChunkPayload ++ body chunk }, none) := by
  show (if More chunk then
      if maxKittyChunkLen < q.kittyChunkPayload.length + (body chunk).length then (q.cleared, none)
      else
        ({ q with
          kittyChunkParams := q.kittyChunkParams <|> some (header chunk)
          kittyChunkPayload := q.kittyChunkPayload ++ body chunk }, none)
    else _) = _
  rw [if_pos hmore]
  split_ifs <;> rfl

theorem receiveKitty_last {chunk : List UInt8} (hlast : ¬More chunk) :
    q.receiveKitty (0x47 :: chunk) =
      match q.kittyChunkParams with
      | some first =>
        if maxKittyChunkLen < q.kittyChunkPayload.length + (body chunk).length then
          (q.cleared, none)
        else (q.cleared, some (first, q.kittyChunkPayload ++ body chunk))
      | none => (q, some (header chunk, body chunk)) := by
  show (if More chunk then _ else _) = _
  rw [if_neg hlast]
  rfl

theorem Idle.cleared_holding (hq : q.Idle) (held : List (List UInt8)) :
    (q.holding held).cleared = q := by
  have hcleared : q.cleared = q := by
    rw [cleared, ← hq.params, ← hq.payload]
  cases held with
  | nil => exact hcleared
  | cons first held => exact hcleared

theorem Idle.payload_holding (hq : q.Idle) (held : List (List UInt8)) :
    (q.holding held).kittyChunkPayload = combined held := by
  cases held with
  | nil => exact hq.payload
  | cons first held => rfl

theorem combined_concat (held : List (List UInt8)) (chunk : List UInt8) :
    combined (held ++ [chunk]) = combined held ++ body chunk := by
  rw [combined, List.flatMap_append, List.flatMap_singleton]
  rfl

/-- **One chunk with `m=1`** is held, or all is discarded. -/
theorem Idle.handle_more (hq : q.Idle) (s : Screen) (held : List (List UInt8)) {chunk : List UInt8}
    (hmore : More chunk) :
    (q.holding held).handleKittyApc s (0x47 :: chunk) = q.holding (hold held chunk) := by
  have htotal : (q.holding held).kittyChunkPayload.length + (body chunk).length =
      (combined (held ++ [chunk])).length := by
    rw [hq.payload_holding, combined_concat, List.length_append]
  have hheld : ({ q.holding held with
      kittyChunkParams := (q.holding held).kittyChunkParams <|> some (header chunk)
      kittyChunkPayload := (q.holding held).kittyChunkPayload ++ body chunk } : Pending) =
      q.holding (held ++ [chunk]) := by
    rw [hq.payload_holding, ← combined_concat]
    cases held with
    | nil =>
      rw [holding, hq.params]
      rfl
    | cons first held => rfl
  unfold handleKittyApc
  rw [receiveKitty_more hmore, htotal, hq.cleared_holding, hheld]
  by_cases hover : maxKittyChunkLen < (combined (held ++ [chunk])).length
  · have hnone : hold held chunk = [] := if_pos hover
    rw [hnone, if_pos hover]
    rfl
  · have hone : hold held chunk = held ++ [chunk] := if_neg hover
    rw [hone, if_neg hover]

theorem handleKittyApc_of_receive {p : Pending} {data params payload : List UInt8} {s : Screen}
    (h : p.receiveKitty data = (q, some (params, payload))) :
    p.handleKittyApc s data =
      q.register s (decodeKitty (0x47 :: (params ++ 0x3b :: payload))) := by
  rw [handleKittyApc, h]
  dsimp only
  cases decodeKitty (0x47 :: (params ++ 0x3b :: payload)) <;> rfl

/-- **The last chunk** registers the image of what is held with it, unless that is over the
    limit. -/
theorem Idle.handle_last (hq : q.Idle) (s : Screen) (held : List (List UInt8)) {chunk : List UInt8}
    (hlast : ¬More chunk) :
    (q.holding held).handleKittyApc s (0x47 :: chunk) =
      if held ≠ [] ∧ maxKittyChunkLen < (combined (held ++ [chunk])).length then q
      else q.register s (decodeChunks (held ++ [chunk])) := by
  cases held with
  | nil =>
    have hreceive : (q.holding []).receiveKitty (0x47 :: chunk) =
        (q, some (header chunk, body chunk)) := by
      rw [receiveKitty_last hlast, holding, hq.params]
    rw [if_neg fun h => h.1 rfl, handleKittyApc_of_receive hreceive, List.nil_append, decodeChunks,
      combined, List.flatMap_singleton]
    rfl
  | cons first held =>
    have htotal : (combined (first :: held)).length + (body chunk).length =
        (combined (first :: held ++ [chunk])).length := by
      rw [combined_concat, List.length_append]
    have hreceive : (q.holding (first :: held)).receiveKitty (0x47 :: chunk) =
        if maxKittyChunkLen < (combined (first :: held ++ [chunk])).length then (q, none)
        else (q, some (header first, combined (first :: held ++ [chunk]))) := by
      rw [receiveKitty_last hlast, hq.payload_holding, htotal, hq.cleared_holding,
        ← combined_concat]
      rfl
    by_cases hover : maxKittyChunkLen < (combined (first :: held ++ [chunk])).length
    · rw [if_pos hover] at hreceive
      rw [if_pos ⟨List.cons_ne_nil _ _, hover⟩, handleKittyApc, hreceive]
    · rw [if_neg hover] at hreceive
      rw [if_neg fun h => hover h.2, handleKittyApc_of_receive hreceive]
      rfl

/-- **A run of chunks with `m=1`.** -/
theorem Idle.receive_more (hq : q.Idle) (s : Screen) (chunks : List (List UInt8)) :
    ∀ held : List (List UInt8), (∀ chunk ∈ chunks, More chunk) →
      (q.holding held).receive s chunks = q.holding (chunks.foldl hold held) := by
  induction chunks with
  | nil => exact fun _ _ => rfl
  | cons chunk chunks ih =>
    intro held hmore
    obtain ⟨hchunk, hchunks⟩ := List.forall_mem_cons.1 hmore
    rw [List.foldl_cons, ← ih _ hchunks, ← hq.handle_more s held hchunk]
    rfl

theorem Idle.register (hq : q.Idle) (s : Screen) (img : Option DecodedImage) :
    (q.register s img).Idle := by
  cases img with
  | none => exact hq
  | some img => exact ⟨hq.params, hq.payload⟩

theorem pendingImages_register_iff (s : Screen) (img : Option DecodedImage) :
    (q.register s img).pendingImages = q.pendingImages ↔ img = none := by
  cases img with
  | none => exact iff_of_true rfl rfl
  | some img =>
    exact iff_of_false (fun h => List.cons_ne_nil _ _ (List.append_right_eq_self.1 h)) fun h => nomatch h

end Pending

namespace Transfer

variable {t : Transfer}

/-- **A whole transfer** registers the image of the chunks after the last discard. -/
theorem receive_chunks (t : Transfer) {q : Pending} (hq : q.Idle) (s : Screen) :
    (t.Discarded → q.receive s t.chunks = q) ∧
      (¬t.Discarded → q.receive s t.chunks = q.register s (decodeChunks t.rest)) := by
  have hrun : q.receive s t.chunks =
      if t.init.foldl hold [] ≠ [] ∧ Pending.maxKittyChunkLen < (combined t.rest).length then q
      else q.register s (decodeChunks t.rest) := by
    rw [rest, ← hq.handle_last s _ t.final, ← hq.receive_more s t.init [] t.more]
    exact List.foldl_append
  have hdiscarded : t.Discarded ↔
      t.init.foldl hold [] ≠ [] ∧ Pending.maxKittyChunkLen < (combined t.rest).length := by
    unfold Discarded
    refine and_congr_left' ?_
    rw [rest, List.length_append, List.length_singleton, ← List.length_pos_iff]
    omega
  rw [hrun, hdiscarded]
  exact ⟨fun h => if_pos h, fun h => if_neg h⟩

theorem hold_of_le {held : List (List UInt8)} {chunk : List UInt8}
    (h : (combined (held ++ [chunk])).length ≤ Pending.maxKittyChunkLen) :
    hold held chunk = held ++ [chunk] := if_neg (not_lt.2 h)

/-- Within the limit nothing is discarded. -/
theorem foldl_hold_of_le (chunks : List (List UInt8)) : ∀ held : List (List UInt8),
    (combined (held ++ chunks)).length ≤ Pending.maxKittyChunkLen →
      chunks.foldl hold held = held ++ chunks := by
  induction chunks with
  | nil => exact fun held _ => (List.append_nil held).symm
  | cons chunk chunks ih =>
    intro held hle
    have happend : held ++ chunk :: chunks = held ++ [chunk] ++ chunks := by
      rw [List.append_assoc]
      rfl
    rw [happend] at hle ⊢
    have hchunk : (combined (held ++ [chunk])).length ≤ Pending.maxKittyChunkLen := by
      rw [combined, List.flatMap_append, List.length_append] at hle
      exact le_of_add_le_left hle
    rw [List.foldl_cons, hold_of_le hchunk, ih _ hle]

theorem rest_of_le (hle : t.total ≤ Pending.maxKittyChunkLen) : t.rest = t.chunks := by
  have hinit : (combined ([] ++ t.init)).length ≤ Pending.maxKittyChunkLen := by
    rw [total, chunks, combined, List.flatMap_append, List.length_append] at hle
    exact le_of_add_le_left hle
  rw [rest, foldl_hold_of_le t.init [] hinit]
  rfl

/-! ## The single chunk -/

/-- No field has a separator. -/
theorem notMem_fields {field : List UInt8} (h : field ∈ t.fields) :
    0x2c ∉ field ∧ 0x3b ∉ field := by
  obtain ⟨field', hfield', rfl⟩ := List.mem_map.1 h
  split_ifs
  · exact ⟨by decide, by decide⟩
  · refine ⟨fun hcomma => absurd (Join.mem_splitOnP hfield' hcomma) (by decide), fun hsep => ?_⟩
    have hheader : 0x3b ∈ [0x2c].intercalate ((header (t.init.headD t.last)).splitOn 0x2c) :=
      Join.mem_intercalate hfield' hsep
    rw [List.intercalate_splitOn] at hheader
    exact Pending.not_mem_takeWhile _ hheader

theorem splitOn_command (t : Transfer) : t.command.splitOn 0x2c = t.fields :=
  List.splitOn_intercalate 0x2c (fun _ h => (notMem_fields h).1) fun h =>
    List.splitOn_ne_nil 0x2c _ (List.map_eq_nil_iff.1 h)

theorem sep_notMem_command (t : Transfer) : 0x3b ∉ t.command := by
  intro h
  rcases Join.of_mem_intercalate h with hcomma | ⟨field, hfield, hsep⟩
  · exact absurd hcomma (by decide)
  · exact (notMem_fields hfield).2 hsep

theorem header_body_single (t : Transfer) :
    header t.single = t.command ∧ body t.single = combined t.chunks := by
  have hpass : ∀ b ∈ t.command, decide (b ≠ 0x3b) = true := fun b hb =>
    decide_eq_true fun h => t.sep_notMem_command (h ▸ hb)
  constructor
  · rw [header, single, List.takeWhile_append_of_pos hpass]
    exact List.append_nil _
  · rw [body, single, List.dropWhile_append_of_pos hpass]
    rfl

theorem single_final (t : Transfer) : ¬More t.single := by
  unfold More
  rw [t.header_body_single.1, splitOn_command]
  intro h
  obtain ⟨field, -, hfield⟩ := List.mem_map.1 h
  split_ifs at hfield with hflag
  · exact absurd hfield (by decide)
  · exact hflag hfield

/-- The decoder does not read the flag. -/
theorem kittyParams_command (t : Transfer) :
    kittyParams t.command = kittyParams (header (t.init.headD t.last)) := by
  have hread : ∀ (p : KittyParams) (field : List UInt8),
      p.read (if field = moreFlag then [0x6d, 0x3d, 0x30] else field) = p.read field := by
    intro p field
    split_ifs with hflag
    · rw [hflag]
      rfl
    · rfl
  rw [kittyParams, splitOn_command, fields, List.foldl_map, kittyParams]
  simp only [hread]

/-- **The single chunk** registers the image of all the chunks. -/
theorem receive_single (t : Transfer) {q : Pending} (hq : q.Idle) (s : Screen) :
    q.receive s [t.single] = q.register s (decodeChunks t.chunks) := by
  have hfirst : t.chunks.headD [] = t.init.headD t.last := by
    rw [chunks]
    cases t.init <;> rfl
  have hsep : 0x3b ∉ header (t.init.headD t.last) := Pending.not_mem_takeWhile _
  have hdecode : decodeChunks ([] ++ [t.single]) = decodeChunks t.chunks := by
    obtain ⟨hheader, hbody⟩ := t.header_body_single
    have hcombined : combined ([] ++ [t.single]) = combined t.chunks := by
      rw [Pending.combined_concat, hbody]
      rfl
    rw [decodeChunks, decodeChunks, hcombined, hfirst, decodeKitty_eq hsep]
    show decodeKitty (0x47 :: (header t.single ++ 0x3b :: combined t.chunks)) = _
    rw [hheader, decodeKitty_eq t.sep_notMem_command, kittyParams_command]
  rw [← hdecode]
  exact (hq.handle_last s [] t.single_final).trans (if_neg fun h => h.1 rfl)

/-! ## Exactly when -/

/-- **A transfer equals a single chunk** exactly if it is within the limit, or what is left of it
    after a discard is over the limit again or no image. -/
theorem equalsSingle_iff (t : Transfer) : t.EqualsSingle ↔
    t.total ≤ Pending.maxKittyChunkLen ∨ t.Discarded ∨ decodeChunks t.rest = none := by
  constructor
  · intro h
    by_cases hle : t.total ≤ Pending.maxKittyChunkLen
    · exact .inl hle
    · have hidle : Pending.new.Idle := ⟨rfl, rfl⟩
      have hnone := (h (Screen.new 1 1) Pending.new hidle).2.1 (not_le.1 hle)
      by_cases hdiscarded : t.Discarded
      · exact .inr (.inl hdiscarded)
      · rw [(t.receive_chunks hidle _).2 hdiscarded] at hnone
        exact .inr (.inr ((Pending.pendingImages_register_iff _ _).1 hnone))
  · intro h s q hq
    obtain ⟨hall, hrest⟩ := t.receive_chunks hq s
    refine ⟨fun hle => ?_, fun hlt => ?_, ?_⟩
    · have hkept : ¬t.Discarded := fun h => absurd h.2 (not_lt.2 (t.rest_of_le hle ▸ hle))
      rw [hrest hkept, rest_of_le hle, receive_single t hq]
    · by_cases hdiscarded : t.Discarded
      · rw [hall hdiscarded]
      · have hnone := (h.resolve_left (not_le.2 hlt)).resolve_left hdiscarded
        rw [hrest hdiscarded, hnone]
        rfl
    · by_cases hdiscarded : t.Discarded
      · rw [hall hdiscarded]
        exact hq
      · rw [hrest hdiscarded]
        exact hq.register s _

/-! ## A discard in the middle -/

/-- `m=1;AAA…`. -/
def filler (n : ℕ) : List UInt8 := 0x6d :: 0x3d :: 0x31 :: 0x3b :: List.replicate n 0x41

theorem more_filler (n : ℕ) : More (filler n) := by
  have hheader : header (filler n) = [0x6d, 0x3d, 0x31] := rfl
  unfold More
  rw [hheader]
  decide

theorem length_combined_filler (k n : ℕ) :
    (combined (List.replicate k (filler n))).length = k * n := by
  have hbody : body (filler n) = List.replicate n 0x41 := rfl
  induction k with
  | zero => exact (Nat.zero_mul n).symm
  | succ k ih =>
    rw [List.replicate_succ', Pending.combined_concat, List.length_append, ih, hbody,
      List.length_replicate, Nat.succ_mul]

/-- `s=1,v=1,m=1;AAAA`. -/
def sized : List UInt8 :=
  [0x73, 0x3d, 0x31, 0x2c, 0x76, 0x3d, 0x31, 0x2c, 0x6d, 0x3d, 0x31, 0x3b, 0x41, 0x41, 0x41, 0x41]

/-- `m=0;AAAA`. -/
def closing : List UInt8 := [0x6d, 0x3d, 0x30, 0x3b, 0x41, 0x41, 0x41, 0x41]

/-- Seventeen chunks of four million bytes, and two small ones. -/
def overlong : Transfer where
  init := List.replicate 17 (filler 4000000) ++ [sized]
  last := closing
  more := by
    intro chunk hchunk
    rcases List.mem_append.1 hchunk with hfiller | hsized
    · exact List.eq_of_mem_replicate hfiller ▸ more_filler _
    · exact List.mem_singleton.1 hsized ▸ by decide
  final := by decide

/-- The last chunk of four million bytes is the one too many. -/
theorem rest_overlong : overlong.rest = [sized, closing] := by
  have hfits : (List.replicate 16 (filler 4000000)).foldl hold [] =
      List.replicate 16 (filler 4000000) := by
    have hlen := length_combined_filler 16 4000000
    refine foldl_hold_of_le _ [] ?_
    rw [List.nil_append, hlen]
    decide
  have hover : hold (List.replicate 16 (filler 4000000)) (filler 4000000) = [] := by
    have hlen := length_combined_filler 17 4000000
    rw [List.replicate_succ'] at hlen
    refine if_pos ?_
    rw [hlen]
    decide
  have hinit : overlong.init = List.replicate 16 (filler 4000000) ++ [filler 4000000] ++ [sized] :=
    congrArg (· ++ [sized]) List.replicate_succ'
  have hone : ∀ held chunk, [chunk].foldl hold held = hold held chunk := fun _ _ => rfl
  rw [rest, hinit, List.foldl_append, List.foldl_append, hfits, hone, hone, hover,
    hold_of_le (by decide)]
  rfl

/-- The chunks after the discard are taken for a transfer of their own. -/
theorem discard_seeds_image :
    Pending.maxKittyChunkLen < overlong.total ∧
      (Pending.new.receive (Screen.new 80 24) overlong.chunks).pendingImages =
        [⟨1, 0, 0, 1, 1, [0, 0, 0, 0]⟩] ∧ ¬overlong.EqualsSingle := by
  have hidle : Pending.new.Idle := ⟨rfl, rfl⟩
  have htotal : Pending.maxKittyChunkLen < overlong.total := by
    have hlen := length_combined_filler 17 4000000
    have hsplit : overlong.chunks = List.replicate 17 (filler 4000000) ++ [sized, closing] :=
      List.append_assoc _ _ _
    rw [total, hsplit, combined, List.flatMap_append, List.length_append]
    rw [combined] at hlen
    rw [hlen]
    decide
  have hkept : ¬overlong.Discarded := by
    unfold Discarded
    rw [rest_overlong]
    decide
  have hdecode : decodeChunks overlong.rest = some ⟨1, 1, [0, 0, 0, 0]⟩ := by
    rw [rest_overlong]
    decide
  have himages : ∀ s, s.cursor = (0, 0) → (Pending.new.receive s overlong.chunks).pendingImages =
      [⟨1, 0, 0, 1, 1, [0, 0, 0, 0]⟩] := by
    intro s hs
    rw [(overlong.receive_chunks hidle s).2 hkept, hdecode, Pending.register, Option.elim,
      Pending.placeImage, hs]
    rfl
  refine ⟨htotal, himages _ rfl, fun h => ?_⟩
  have hnone := (h (Screen.new 80 24) Pending.new hidle).2.1 htotal
  rw [himages _ rfl] at hnone
  exact List.cons_ne_nil _ _ hnone

end Transfer

end Nexterm.Vt
