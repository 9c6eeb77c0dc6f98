/-
  What a screen has for the client and for the program besides its grid (`screen.rs`,
  `performer.rs`): the reception state of images and the queues that the reader thread drains.

  * `Pending`: the fields of `Screen` that the grid does not depend on.
  * `Pending.handleKittyApc`, `handleIterm2Osc`, `finishSixel`: images.
  * `Pending.oscDispatch`: the OSC sequences.
  * `Event`: what reaches the screen, an action of `vte` or the payload of an APC segment.
  * `Terminal`: the parser with its queues.
  * `Terminal.run_events`: what the queues and the screen are after some bytes.
-/
import Nexterm.Vt.Apc
import Nexterm.Vt.Text
import Nexterm.Lib.Runs
import Std.Data.ExtTreeMap.Lemmas

namespace Nexterm.Vt

open Runs

/-! ## The queues -/

/-- OSC 133 semantic-zone mark kind. -/
inductive SemanticMarkKind
  | promptStart
  | commandStart
  | outputStart
  | commandEnd
  deriving DecidableEq, Repr

/-- OSC 133 semantic-zone mark. -/
structure SemanticMark where
  row : UInt16
  kind : SemanticMarkKind
  exitCode : Option Int32
  deriving DecidableEq, Repr

/-- A pending OSC 66 text-sizing event. -/
structure TextSizingEvent where
  scaleNum : UInt8
  scaleDen : UInt8
  widthCells : UInt16
  valign : UInt8
  halign : UInt8
  col : UInt16
  row : UInt16
  text : String
  deriving DecidableEq, Repr

/-- Pending image (before being forwarded to the client). -/
structure PendingImage where
  id : UInt32
  col : UInt16
  row : UInt16
  width : UInt32
  height : UInt32
  rgba : List UInt8
  deriving DecidableEq, Repr

/-- A message of the drag-and-drop protocol that the reader thread answers. -/
inductive DndRequest
  | data (index : UInt32)
  | complete
  deriving DecidableEq, Repr

/-- Snapshot of the dynamic-color override state. -/
structure ColorOverrides where
  fg : Option Rgb
  bg : Option Rgb
  palette : List (UInt8 × Rgb)
  deriving DecidableEq, Repr

/-- The reception state and the queues.  `pendingResponses` has the replies to OSC queries only; the
    replies to CSI queries are with the screen. -/
structure Pending where
  dcsSixelActive : Bool
  dcsBuf : List UInt8
  dcsCursor : UInt16 × UInt16
  pendingImages : List PendingImage
  pendingTextSizing : List TextSizingEvent
  nextImageId : UInt32
  kittyChunkPayload : List UInt8
  kittyChunkParams : Option (List UInt8)
  pendingBell : Bool
  pendingTitle : Option String
  pendingNotification : Option (String × String)
  pendingCwd : Option String
  semanticMarks : List SemanticMark
  pendingClipboardWrites : List String
  pendingResponses : List String
  configuredFg : Rgb
  configuredBg : Rgb
  dynamicFg : Option Rgb
  dynamicBg : Option Rgb
  paletteOverrides : Std.ExtTreeMap UInt8 Rgb
  pendingPointerShape : Option String
  colorOverridesChanged : Bool
  osc99Pending : Std.ExtTreeMap String (String × String)
  pendingProgress : Option (UInt8 × UInt8)
  dndEnabled : Bool
  pendingDndRequests : List DndRequest

/-- The cursor of a screen, as it goes into a queue. -/
def Screen.cursor (s : Screen) : UInt16 × UInt16 := (s.cursorCol.toUInt16, s.cursorRow.toUInt16)

namespace Pending

/-- The queues of a new screen. -/
def new : Pending where
  dcsSixelActive := false
  dcsBuf := []
  dcsCursor := (0, 0)
  pendingImages := []
  pendingTextSizing := []
  nextImageId := 1
  kittyChunkPayload := []
  kittyChunkParams := none
  pendingBell := false
  pendingTitle := none
  pendingNotification := none
  pendingCwd := none
  semanticMarks := []
  pendingClipboardWrites := []
  pendingResponses := []
  configuredFg := (0xd9, 0xd9, 0xd9)
  configuredBg := (0x0d, 0x0d, 0x0d)
  dynamicFg := none
  dynamicBg := none
  paletteOverrides := ∅
  pendingPointerShape := none
  colorOverridesChanged := false
  osc99Pending := ∅
  pendingProgress := none
  dndEnabled := false
  pendingDndRequests := []

/-! ## Images -/

/-- Maximum size of the DCS Sixel buffer. -/
def maxDcsBufLen : ℕ := 16 * 1024 * 1024

/-- Maximum size of a Kitty multi-chunk transfer payload. -/
def maxKittyChunkLen : ℕ := 64 * 1024 * 1024

/-- Maximum size of an iTerm2 payload, in Base64. -/
def maxIterm2PayloadBytes : ℕ := 16 * 1024 * 1024

/-- An image at a position, with the next id. -/
def imageAt (q : Pending) (cursor : UInt16 × UInt16) (img : DecodedImage) : PendingImage :=
  ⟨q.nextImageId, cursor.1, cursor.2, img.width, img.height, img.rgba⟩

/-- Queues an image at a position. -/
def placeImage (q : Pending) (cursor : UInt16 × UInt16) (img : DecodedImage) : Pending :=
  { q with
    nextImageId := q.nextImageId + 1
    pendingImages := q.pendingImages ++ [q.imageAt cursor img] }

/-- Begins receiving a Sixel DCS. -/
def startSixel (q : Pending) (s : Screen) : Pending :=
  { q with dcsSixelActive := true, dcsBuf := [], dcsCursor := s.cursor }

/-- Appends a DCS byte to the buffer; on overflow the sequence is discarded. -/
def pushDcsByte (q : Pending) (byte : UInt8) : Pending :=
  if !q.dcsSixelActive then q
  else if q.dcsBuf.length ≥ maxDcsBufLen then { q with dcsBuf := [], dcsSixelActive := false }
  else { q with dcsBuf := q.dcsBuf ++ [byte] }

/-- Finishes the Sixel DCS and queues the image. -/
def finishSixel (q : Pending) : Pending :=
  if !q.dcsSixelActive then q
  else
    let q := { q with dcsSixelActive := false }
    let q :=
      match decodeSixel q.dcsBuf with
      | none => q
      | some img => q.placeImage q.dcsCursor img
    { q with dcsBuf := [] }

/-- Takes in one segment of a Kitty transfer, with chunks (`m=1`): the accumulator after it, and the
    parameters and the payload of the command that it completes. -/
def receiveKitty (q : Pending) : List UInt8 → Pending × Option (List UInt8 × List UInt8)
  | 0x47 :: inner =>
    let params := inner.takeWhile (· ≠ 0x3b)
    let payload := (inner.dropWhile (· ≠ 0x3b)).tail
    let total := q.kittyChunkPayload.length + payload.length
    let cleared := { q with kittyChunkPayload := [], kittyChunkParams := none }
    if [0x6d, 0x3d, 0x31] ∈ params.splitOn 0x2c then
      if total > maxKittyChunkLen then (cleared, none)
      else
        ({ q with
            kittyChunkParams := q.kittyChunkParams <|> some params
            kittyChunkPayload := q.kittyChunkPayload ++ payload }, none)
    else
      match q.kittyChunkParams with
      | some first =>
        if total > maxKittyChunkLen then (cleared, none)
        else (cleared, some (first, q.kittyChunkPayload ++ payload))
      | none => (q, some (params, payload))
  | _ => (q, none)

/-- Processes a Kitty APC image sequence; a complete command is decoded and its image queued. -/
def handleKittyApc (q : Pending) (s : Screen) (data : List UInt8) : Pending :=
  match q.receiveKitty data with
  | (q, none) => q
  | (q, some (params, payload)) =>
    match decodeKitty (0x47 :: (params ++ 0x3b :: payload)) with
    | none => q
    | some img => q.placeImage s.cursor img

/-- `trim_ascii`. -/
def trimAscii (bytes : List UInt8) : List UInt8 :=
  ((bytes.dropWhile isAsciiWhitespace).reverse.dropWhile isAsciiWhitespace).reverse

/-- `trim_start_matches("File=")`. -/
def trimFile : List Char → List Char
  | 'F' :: 'i' :: 'l' :: 'e' :: '=' :: cs => trimFile cs
  | cs => cs

/-- Whether the arguments of an iTerm2 sequence ask for an inline image. -/
def isInline (args : List UInt8) : Bool :=
  let args := String.ofList (trimFile (trim ((fromUtf8 args).getD "")).toList)
  (splitAt ';' args).any fun kv => (trim kv).toList.map Char.toLower = "inline=1".toList

/-- The picture file of an iTerm2 sequence, if the sequence is to be displayed. -/
def iterm2File (args : List (List UInt8)) : Option (List UInt8) :=
  let full := List.intercalate [0x3b] args
  match full.dropWhile (· ≠ 0x3a) with
  | [] => none
  | _ :: after =>
    let data := trimAscii after
    if data.length > maxIterm2PayloadBytes ∨ !isInline (full.takeWhile (· ≠ 0x3a)) then none
    else base64Decode data

/-- Handles an iTerm2 inline image sequence (OSC 1337). -/
def handleIterm2Osc (I : ImageCrate) (q : Pending) (s : Screen) (args : List (List UInt8)) :
    Pending :=
  match (iterm2File args).bind (decodeIterm2 I) with
  | none => q
  | some img => q.placeImage s.cursor img

/-! ## Text -/

/-- Maximum length (in bytes) of an OSC title string. -/
def maxTitleLen : ℕ := 256

/-- Maximum length (in bytes) for the title and the body of a desktop notification. -/
def maxNotificationLen : ℕ := 1024

/-- Maximum length (in bytes) of a clipboard write. -/
def maxClipboardLen : ℕ := maxNotificationLen * 1024

/-- Maximum length (in bytes) of an OSC 66 text. -/
def maxTextLen : ℕ := 4096

/-- Maximum length (in bytes) of a pointer shape. -/
def maxPointerShapeLen : ℕ := 64

/-- Maximum length (in bytes) of an OSC 99 identifier. -/
def maxOsc99IdLen : ℕ := 64

/-- Maximum number of notifications that accumulate. -/
def maxOsc99Pending : ℕ := 4

/-- Cap on queued OSC 72 requests. -/
def maxDndRequests : ℕ := 8

/-- Maximum length (in bytes) of an OSC 52 payload. -/
def maxOsc52PayloadBytes : ℕ := 16 * 1024 * 1024

/-- Sets a pending title change. -/
def setPendingTitle (q : Pending) (title : String) : Pending :=
  { q with pendingTitle := some (sanitizeOscString title maxTitleLen) }

/-- Sets a pending desktop notification. -/
def setPendingNotification (q : Pending) (title body : String) : Pending :=
  let sanitized :=
    (sanitizeOscString title maxNotificationLen, sanitizeOscString body maxNotificationLen)
  { q with pendingNotification := some sanitized }

/-- Sets a pending CWD change. -/
def setPendingCwd (q : Pending) (path : String) : Pending :=
  { q with pendingCwd := some (sanitizeOscString path maxCwdLen) }

/-- Queues an OSC 52 clipboard-write request. -/
def queueClipboardWrite (q : Pending) (text : String) : Pending :=
  { q with pendingClipboardWrites :=
      q.pendingClipboardWrites ++ [sanitizeOscString text maxClipboardLen] }

/-- Queues an OSC 22 pointer-shape change. -/
def setPendingPointerShape (q : Pending) (name : String) : Pending :=
  let name := trim name
  if name.utf8ByteSize > maxPointerShapeLen then q
  else { q with pendingPointerShape := some (if name.isEmpty then "default" else name) }

/-- Records an OSC 133 semantic-zone mark. -/
def addSemanticMark (q : Pending) (s : Screen) (kind : SemanticMarkKind) (exitCode : Option Int32) :
    Pending := { q with semanticMarks := q.semanticMarks ++ [⟨s.cursor.2, kind, exitCode⟩] }

/-- Queues a reply. -/
def pushPendingResponse (q : Pending) (reply : String) : Pending :=
  { q with pendingResponses := q.pendingResponses ++ [reply] }

/-- Handles an OSC 9;4 progress report. -/
def handleOsc9Progress (q : Pending) (state progress : String) : Pending :=
  match parseU8 (trim state) with
  | none => q
  | some state =>
    if state > 4 then q
    else { q with pendingProgress := some (state, min ((parseU8 (trim progress)).getD 0) 100) }

/-- A field of the metadata of OSC 66, with its value trimmed. -/
def osc66Field (kv : String) : String × String :=
  match splitOnce '=' kv with
  | none => (trim kv, "")
  | some (key, val) => (trim key, trim val)

/-- The sizing that the metadata of OSC 66 asks for. -/
structure Osc66 where
  scaleInt : Option UInt8 := none
  scaleNum : UInt8 := 1
  scaleDen : UInt8 := 1
  widthCells : UInt16 := 0
  valign : UInt8 := 0
  halign : UInt8 := 0

/-- Reads one field; a value that is not a number is ignored. -/
def Osc66.read (m : Osc66) (kv : String) : Osc66 :=
  let (key, val) := osc66Field kv
  if key = "s" then { m with scaleInt := ((parseU8 val).map fun n => min (max n 1) 7) <|> m.scaleInt }
  else if key = "n" then { m with scaleNum := ((parseU8 val).map (max · 1)).getD m.scaleNum }
  else if key = "d" then { m with scaleDen := ((parseU8 val).map (max · 1)).getD m.scaleDen }
  else if key = "w" then { m with widthCells := (parseU16 val).getD m.widthCells }
  else if key = "v" then { m with valign := ((parseU8 val).map (min · 2)).getD m.valign }
  else if key = "h" then { m with halign := ((parseU8 val).map (min · 2)).getD m.halign }
  else m

/-- Handles OSC 66. -/
def handleOsc66 (q : Pending) (s : Screen) (args : List (List UInt8)) : Pending :=
  match args with
  | metadata :: text :: _ =>
    match fromUtf8 text with
    | none => q
    | some text =>
      if text.isEmpty then q
      else
        let m := (splitAt ':' (trim ((fromUtf8 metadata).getD ""))).foldl Osc66.read {}
        let event : TextSizingEvent :=
          { scaleNum := m.scaleInt.getD m.scaleNum
            scaleDen := if m.scaleInt.isSome then 1 else m.scaleDen
            widthCells := m.widthCells
            valign := m.valign
            halign := m.halign
            col := s.cursor.1
            row := s.cursor.2
            text := sanitizeOscString text maxTextLen }
        { q with pendingTextSizing := q.pendingTextSizing ++ [event] }
  | _ => q

/-- The metadata of OSC 99. -/
structure Osc99 where
  id : String := "0"
  done : Bool := true
  ptype : String := "title"
  base64 : Bool := false

/-- Reads one field. -/
def Osc99.read (m : Osc99) (part : String) : Osc99 :=
  match splitOnce '=' part with
  | none => m
  | some (key, val) =>
    if key = "i" then { m with id := val }
    else if key = "d" then { m with done := val ≠ "0" }
    else if key = "p" then { m with ptype := val }
    else if key = "e" then { m with base64 := val = "1" }
    else m

/-- The title and the body after one more part: a complete notification is set pending, an
    incomplete one waits. -/
def addOsc99 (q : Pending) (m : Osc99) (title body : String) : Pending :=
  if m.done then
    if !title.isEmpty ∨ !body.isEmpty then
      q.setPendingNotification (if title.isEmpty then "Nexterm" else title) body
    else q
  else if q.osc99Pending.size < maxOsc99Pending then
    { q with osc99Pending := q.osc99Pending.insert m.id (title, body) }
  else q

/-- Handles OSC 99: the parts of a notification accumulate until the last one. -/
def handleOsc99 (q : Pending) (metadata : String) (payload : List UInt8) : Pending :=
  let m := (splitAt ':' metadata).foldl Osc99.read {}
  if m.id.utf8ByteSize > maxOsc99IdLen then q
  else
    match if m.base64 then (base64Decode payload).bind fromUtf8 else fromUtf8 payload with
    | none => q
    | some text =>
      let entry := q.osc99Pending.getD m.id ("", "")
      let title := if m.ptype = "title" then entry.1 ++ text else entry.1
      let body := if m.ptype = "body" then entry.2 ++ text else entry.2
      { q with osc99Pending := q.osc99Pending.erase m.id }.addOsc99 m
        (sanitizeOscString title maxNotificationLen) (sanitizeOscString body maxNotificationLen)

/-- The metadata of OSC 72. -/
structure Osc72 where
  msgType : String := "a"
  id : Option String := none
  index : Option UInt32 := none
  operation : Option String := none

/-- Reads one field. -/
def Osc72.read (m : Osc72) (part : String) : Osc72 :=
  match splitOnce '=' part with
  | none => m
  | some (key, val) =>
    if key = "t" then { m with msgType := val }
    else if key = "i" then { m with id := some val }
    else if key = "x" then { m with index := parseU32 (trim val) }
    else if key = "o" then { m with operation := some val }
    else m

/-- Handles OSC 72. -/
def handleOsc72 (q : Pending) (metadata : String) : Pending :=
  let m := (splitAt ':' metadata).foldl Osc72.read {}
  if m.msgType = "q" then
    let id := m.id.getD "0"
    if id.utf8ByteSize > 32 ∨ !id.toList.all fun c => c.isDigit || c = '-' then q
    else q.pushPendingResponse ("\x1b]72;t=q:i=" ++ id ++ "\x1b\\")
  else if m.msgType = "a" then { q with dndEnabled := true }
  else if m.msgType = "A" then { q with dndEnabled := false }
  else if m.msgType = "r" then
    if q.pendingDndRequests.length ≥ maxDndRequests then q
    else
      match m.index.filter (1 ≤ ·) with
      | some index => { q with pendingDndRequests := q.pendingDndRequests ++ [.data index] }
      | none =>
        if m.operation.isSome then
          { q with pendingDndRequests := q.pendingDndRequests ++ [.complete] }
        else q
  else q

/-! ## Colors -/

/-- Effective palette entry: the override, or else the builtin palette. -/
def paletteColor (q : Pending) (index : UInt8) : Rgb :=
  (q.paletteOverrides[index]?).getD (builtinPaletteColor index)

/-- Overrides one palette entry. -/
def setPaletteEntry (q : Pending) (index : UInt8) (color : Rgb) : Pending :=
  { q with
    paletteOverrides := q.paletteOverrides.insert index color
    colorOverridesChanged := true }

/-- Resets one palette entry. -/
def resetPaletteEntry (q : Pending) (index : UInt8) : Pending :=
  { q with
    paletteOverrides := q.paletteOverrides.erase index
    colorOverridesChanged := index ∈ q.paletteOverrides || q.colorOverridesChanged }

/-- Resets every palette entry. -/
def resetPaletteAll (q : Pending) : Pending :=
  { q with
    paletteOverrides := ∅
    colorOverridesChanged := !q.paletteOverrides.isEmpty || q.colorOverridesChanged }

/-- Sets the dynamic foreground, or resets it. -/
def setDynamicFg (q : Pending) (color : Option Rgb) : Pending :=
  { q with dynamicFg := color, colorOverridesChanged := true }

/-- Sets the dynamic background, or resets it. -/
def setDynamicBg (q : Pending) (color : Option Rgb) : Pending :=
  { q with dynamicBg := color, colorOverridesChanged := true }

/-- OSC replies mirror the terminator style of the request. -/
def oscTerminator (bellTerminated : Bool) : String := if bellTerminated then "\x07" else "\x1b\\"

/-- One pair of OSC 4. -/
def paletteRequest (q : Pending) (bellTerminated : Bool) (index spec : List UInt8) : Pending :=
  match (fromUtf8 index).bind fun s => parseU8 (trim s), fromUtf8 spec with
  | some index, some spec =>
    if trim spec = "?" then
      q.pushPendingResponse ("\x1b]4;" ++ toString index ++ ";" ++
        formatRgbReply (q.paletteColor index) ++ oscTerminator bellTerminated)
    else
      match parseColorSpec spec with
      | none => q
      | some color => q.setPaletteEntry index color
  | _, _ => q

/-- OSC 4: pairs of an index and a color; a parameter left over is dropped. -/
def paletteRequests (q : Pending) (bellTerminated : Bool) : List (List UInt8) → Pending
  | index :: spec :: args =>
    (q.paletteRequest bellTerminated index spec).paletteRequests bellTerminated args
  | _ => q

/-- OSC 10 and 11: the default foreground and background. -/
def defaultColorRequest (q : Pending) (bellTerminated : Bool) (code spec : String) : Pending :=
  let isFg := code = "10"
  if trim spec = "?" then
    let color := if isFg then q.dynamicFg.getD q.configuredFg else q.dynamicBg.getD q.configuredBg
    q.pushPendingResponse ("\x1b]" ++ code ++ ";" ++ formatRgbReply color ++
      oscTerminator bellTerminated)
  else
    match parseColorSpec spec with
    | none => q
    | some color => if isFg then q.setDynamicFg (some color) else q.setDynamicBg (some color)

/-! ## Actions -/

/-- OSC 9: a desktop notification, or a progress report. -/
def osc9 (q : Pending) (args : List (List UInt8)) : Pending :=
  match args[0]?.bind fromUtf8 with
  | none => q
  | some msg =>
    if trim msg = "4" ∧ args.length ≥ 2 then
      q.handleOsc9Progress ((args[1]?.bind fromUtf8).getD "") ((args[2]?.bind fromUtf8).getD "0")
    else q.setPendingNotification "Nexterm" msg

/-- OSC 52: a clipboard write request. -/
def osc52 (q : Pending) (args : List (List UInt8)) : Pending :=
  let selection := (args[0]?.bind fromUtf8).getD ""
  let payload := trim ((args[1]?.bind fromUtf8).getD "")
  if !selection.toList.contains 'c' ∨ payload = "?" ∨
      payload.utf8ByteSize > maxOsc52PayloadBytes then q
  else
    match (base64Decode payload.toUTF8.data.toList).bind fromUtf8 with
    | none => q
    | some text => q.queueClipboardWrite text

/-- OSC 777: a desktop notification. -/
def osc777 (q : Pending) (args : List (List UInt8)) : Pending :=
  if (args[0]?.bind fromUtf8).getD "" ≠ "notify" then q
  else
    q.setPendingNotification ((args[1]?.bind fromUtf8).getD "Nexterm")
      ((args[2]?.bind fromUtf8).getD "")

/-- OSC 133: semantic zone markers. -/
def osc133 (q : Pending) (s : Screen) (args : List (List UInt8)) : Pending :=
  match (args[0]?.bind fromUtf8).map trim with
  | none => q
  | some mark =>
    if mark = "A" then q.addSemanticMark s .promptStart none
    else if mark = "B" then q.addSemanticMark s .commandStart none
    else if mark = "C" then q.addSemanticMark s .outputStart none
    else if mark = "D" then
      q.addSemanticMark s .commandEnd ((args[1]?.bind fromUtf8).bind fun code => parseI32 (trim code))
    else q

/-- Handles an OSC sequence; hyperlinks (OSC 8) are with the screen. -/
def oscDispatch (I : ImageCrate) (q : Pending) (s : Screen) (params : List (List UInt8))
    (bellTerminated : Bool) : Pending :=
  match params with
  | [] => q
  | codeBytes :: args =>
    match (fromUtf8 codeBytes).map trim with
    | none => q
    | some code =>
      if code = "0" ∨ code = "1" ∨ code = "2" then
        ((args[0]?.bind fromUtf8).map q.setPendingTitle).getD q
      else if code = "7" then
        (((args[0]?.bind fromUtf8).bind fun p => parseOsc7Cwd (trim p)).map q.setPendingCwd).getD q
      else if code = "9" then q.osc9 args
      else if code = "52" then q.osc52 args
      else if code = "72" then q.handleOsc72 ((args[0]?.bind fromUtf8).getD "")
      else if code = "99" then
        q.handleOsc99 ((args[0]?.bind fromUtf8).getD "") (List.intercalate [0x3b] (args.drop 1))
      else if code = "777" then q.osc777 args
      else if code = "66" then q.handleOsc66 s args
      else if code = "1337" then q.handleIterm2Osc I s args
      else if code = "4" then q.paletteRequests bellTerminated args
      else if code = "10" ∨ code = "11" then
        ((args[0]?.bind fromUtf8).map (q.defaultColorRequest bellTerminated code)).getD q
      else if code = "22" then q.setPendingPointerShape ((args[0]?.bind fromUtf8).getD "")
      else if code = "104" then
        if args = [] then q.resetPaletteAll
        else
          args.foldl (fun q raw =>
            (((fromUtf8 raw).bind fun s => parseU8 (trim s)).map q.resetPaletteEntry).getD q) q
      else if code = "110" then q.setDynamicFg none
      else if code = "111" then q.setDynamicBg none
      else if code = "133" then q.osc133 s args
      else q

/-- Performs an action; the screen is the one before it. -/
def perform (I : ImageCrate) (s : Screen) (q : Pending) : Perform → Pending
  | .execute byte => if byte = 0x07 then { q with pendingBell := true } else q
  | .oscDispatch params bellTerminated => q.oscDispatch I s params bellTerminated
  | .hook _ _ _ action => if action = 'q' then q.startSixel s else q
  | .put byte => q.pushDcsByte byte
  | .unhook => q.finishSixel
  | .print _ | .csiDispatch _ _ _ _ | .escDispatch _ _ _ => q

end Pending

/-! ## The parser and its queues -/

/-- What reaches the screen. -/
inductive Event
  | perform (action : Perform)
  | kitty (payload : List UInt8)

/-- What the screen receives when bytes and payloads are handed on. -/
def Vte.events (V : Vte) : V.State → List Delivered → List Event
  | _, [] => []
  | state, .vte byte :: ds =>
    (V.advance state byte).2.map .perform ++ V.events (V.advance state byte).1 ds
  | state, .kitty payload :: ds => .kitty payload :: V.events state ds

/-- What one byte brings to the screen. -/
def VtParser.eventsByte {V : Vte} (p : VtParser V) (byte : UInt8) : List Event :=
  V.events p.parser (p.delivered byte)

/-- What a byte stream brings to the screen. -/
def VtParser.events {V : Vte} (p : VtParser V) : List UInt8 → List Event
  | [] => []
  | byte :: bytes => p.eventsByte byte ++ (p.advanceByte byte).events bytes

/-- The screen and the queues after an event. -/
def Event.step (V : Vte) (I : ImageCrate) (t : Screen × Pending) : Event → Screen × Pending
  | .perform action => (t.1.perform V action, t.2.perform I t.1 action)
  | .kitty payload => (t.1, t.2.handleKittyApc t.1 payload)

/-- The parser with all that it has for others. -/
structure Terminal (V : Vte) where
  parser : VtParser V
  pending : Pending

namespace Terminal

variable {V : Vte} (I : ImageCrate)

/-- A new parser. -/
def new (V : Vte) (cols rows : ℕ) : Terminal V := ⟨VtParser.new V cols rows, Pending.new⟩

/-- Processes one byte. -/
def advanceByte (t : Terminal V) (byte : UInt8) : Terminal V where
  parser := t.parser.advanceByte byte
  pending := (run (Event.step V I) (t.parser.screen, t.pending) (t.parser.eventsByte byte)).2

/-- Processes a byte stream. -/
def advance (t : Terminal V) (bytes : List UInt8) : Terminal V := bytes.foldl (advanceByte I) t

theorem run_actions (actions : List Perform) : ∀ t : Screen × Pending,
    (run (Event.step V I) t (actions.map .perform)).1 = actions.foldl (Screen.perform V) t.1 := by
  induction actions with
  | nil => exact fun t => rfl
  | cons action actions ih =>
    intro t
    exact ih (Event.step V I t (.perform action))

/-- The queues do not matter to the screen. -/
theorem run_vteEvents : ∀ (ds : List Delivered) (state : V.State) (t : Screen × Pending),
    (run (Event.step V I) t (V.events state ds)).1 =
      ((vteBytes ds).foldl V.feed (state, t.1)).2
  | [], _, _ => rfl
  | .vte byte :: ds, state, t => by
    rw [Vte.events, run_append, run_vteEvents ds, run_actions]
    rfl
  | .kitty payload :: ds, state, t => run_vteEvents ds state (Event.step V I t (.kitty payload))

theorem run_eventsByte (t : Terminal V) (byte : UInt8) :
    run (Event.step V I) (t.parser.screen, t.pending) (t.parser.eventsByte byte) =
      ((t.advanceByte I byte).parser.screen, (t.advanceByte I byte).pending) := by
  refine Prod.ext ?_ rfl
  rw [VtParser.eventsByte, run_vteEvents]
  exact (congrArg Prod.snd (t.parser.terminal_advanceByte byte)).symm

/-- **The screen and the queues after a byte stream** are those after its events. -/
theorem run_events : ∀ (bytes : List UInt8) (t : Terminal V),
    run (Event.step V I) (t.parser.screen, t.pending) (t.parser.events bytes) =
      ((t.advance I bytes).parser.screen, (t.advance I bytes).pending)
  | [], _ => rfl
  | byte :: bytes, t => by
    have hrest := run_events bytes (t.advanceByte I byte)
    rw [VtParser.events, run_append, run_eventsByte]
    exact hrest

/-- The parser is the one without the queues. -/
theorem parser_advance : ∀ (bytes : List UInt8) (t : Terminal V),
    (t.advance I bytes).parser = t.parser.advance bytes
  | [], _ => rfl
  | byte :: bytes, t => parser_advance bytes (t.advanceByte I byte)

end Terminal

end Nexterm.Vt
