/-
  The parser (`lib.rs`) and the actions it performs on the screen (`performer.rs`).

  * `Vte`, `Perform`: the `vte` crate is a parameter, a byte automaton that emits actions.
  * `Screen.perform`: what an action does.  The queues for titles, images, colors, notifications
    and semantic marks are not part of the model, so an action that only fills them does nothing.
  * `VtParser.advance`: the byte stream, with the APC sequences cut out of it.
-/
import Nexterm.Vt.Screen

namespace Nexterm.Vt

/-- The actions of the `vte` crate; a CSI parameter is the list of its subparameters. -/
inductive Perform
  | print (c : Char)
  | execute (byte : UInt8)
  | csiDispatch (params : List (List ℕ)) (intermediates : List UInt8) (ignore : Bool) (action : Char)
  | oscDispatch (params : List (List UInt8)) (bellTerminated : Bool)
  | escDispatch (intermediates : List UInt8) (ignore : Bool) (byte : UInt8)
  | hook (params : List (List ℕ)) (intermediates : List UInt8) (ignore : Bool) (action : Char)
  | put (byte : UInt8)
  | unhook

/-- The `vte` and `unicode-width` crates. -/
structure Vte where
  State : Type
  init : State
  /-- The actions for one byte. -/
  advance : State → UInt8 → State × List Perform
  /-- The display width of a character, if it has one. -/
  width : Char → Option ℕ

/-! ## Hyperlinks -/

/-- Unicode `White_Space`. -/
def isWhitespace (c : Char) : Bool :=
  let n := c.toNat
  (0x09 ≤ n ∧ n ≤ 0x0d) ∨ n = 0x20 ∨ n = 0x85 ∨ n = 0xa0 ∨ n = 0x1680 ∨ (0x2000 ≤ n ∧ n ≤ 0x200a) ∨
    n = 0x2028 ∨ n = 0x2029 ∨ n = 0x202f ∨ n = 0x205f ∨ n = 0x3000

theorem isWhitespace_space : isWhitespace ' ' = true := rfl

/-- `str::trim`. -/
def trim (s : String) : String :=
  String.ofList ((s.toList.dropWhile isWhitespace).reverse.dropWhile isWhitespace).reverse

/-- `str::from_utf8`. -/
def fromUtf8 (bytes : List UInt8) : Option String := String.fromUTF8? ⟨bytes.toArray⟩

/-- Maximum length (in bytes) of an OSC 8 hyperlink URI. -/
def maxHyperlinkUriLen : ℕ := 2048

/-- URI schemes allowed in OSC 8 hyperlinks. -/
def allowedHyperlinkSchemes : List String :=
  ["http://", "https://", "mailto:", "ftp://", "ftps://", "ssh://"]

/-- Validates an OSC 8 hyperlink URI.  The schemes are ASCII, and no other character lowers to
    one of their letters without leaving a second one behind, so the lowering of ASCII letters is
    enough.  (The warning for a refused scheme slices the string at byte 80; whether that can fail
    is not modelled.) -/
def validateHyperlinkUri (uri : String) : Option String :=
  if uri.isEmpty ∨ uri.utf8ByteSize > maxHyperlinkUriLen then none
  else if !allowedHyperlinkSchemes.any fun scheme =>
      scheme.toList.isPrefixOf (uri.toList.map Char.toLower) then none
  else
    let cleaned := uri.toList.filter fun c =>
      0x20 ≤ c.toNat ∧ c.toNat ≠ 0x7f ∧ ¬(0x80 ≤ c.toNat ∧ c.toNat ≤ 0x9f)
    if cleaned.isEmpty then none else some (String.ofList cleaned)

namespace Screen

/-- Finalizes the active link; its span is recorded if the cursor has moved to the right. -/
def finishHyperlink (s : Screen) : Screen :=
  match s.currentHyperlinkUrl with
  | none => s
  | some activeUrl =>
    let links := s.grid.hyperlinks ++
      if s.cursorCol > s.hyperlinkStartCol then
        [⟨s.hyperlinkStartRow, s.hyperlinkStartCol, s.cursorCol, activeUrl⟩]
      else []
    { s with currentHyperlinkUrl := none, grid := { s.grid with hyperlinks := links } }

/-- Handles the start or end of an OSC 8 hyperlink. -/
def setHyperlink (s : Screen) (url : Option String) : Screen :=
  let s := s.finishHyperlink
  match url with
  | none => s
  | some url =>
    match validateHyperlinkUri url with
    | none => { s with currentHyperlinkUrl := none }
    | some validated =>
      { s with
        currentHyperlinkUrl := some validated
        hyperlinkStartCol := s.cursorCol
        hyperlinkStartRow := s.cursorRow }

/-! ## Modes and replies -/

/-- Pushes the current keyboard flags onto the stack. -/
def pushKeyboardProtocolFlags (s : Screen) (flags : UInt8) : Screen :=
  { s with
    keyboardProtocolStack := s.keyboardProtocolFlags :: s.keyboardProtocolStack
    keyboardProtocolFlags := flags }

/-- Pops `n` levels from the stack. -/
def popKeyboardProtocolFlags (s : Screen) : ℕ → Screen
  | 0 => s
  | n + 1 =>
    match s.keyboardProtocolStack with
    | [] => { s with keyboardProtocolFlags := 0 }
    | prev :: rest =>
      popKeyboardProtocolFlags
        { s with keyboardProtocolStack := rest, keyboardProtocolFlags := prev } n

/-- Queues a reply. -/
def pushPendingResponse (s : Screen) (reply : String) : Screen :=
  { s with pendingResponses := s.pendingResponses ++ [reply] }

/-- Sets one DEC private mode. -/
def setMode (s : Screen) (enable : Bool) (mode : ℕ) : Screen :=
  if mode = 47 ∨ mode = 1047 ∨ mode = 1049 then
    if enable then s.switchToAlt else s.switchToPrimary
  else if mode = 1000 then { s with mouseMode := if enable then 1 else 0 }
  else if mode = 1006 then { s with mouseMode := if enable then 2 else 0 }
  else if mode = 2004 then { s with bracketedPaste := enable }
  else if mode = 2026 then { s with synchronizedOutput := enable }
  else s

/-- Sets DEC private modes (CSI `h` / `l` with a `?` prefix). -/
def decPrivateMode (s : Screen) (params : List (List ℕ)) (enable : Bool) : Screen :=
  params.foldl (fun s param => s.setMode enable (param.head?.getD 0)) s

/-! ## Actions -/

/-- Handles a control character. -/
def execute (s : Screen) (byte : UInt8) : Screen :=
  if byte = 0x08 ∧ s.cursorCol > 0 then s.moveCursor (s.cursorCol - 1) s.cursorRow
  else if byte = 0x09 then
    let nextTab := (s.cursorCol / 8 + 1) * 8 % 65536
    s.moveCursor (min nextTab (s.grid.width - 1)) s.cursorRow
  else if 0x0a ≤ byte ∧ byte ≤ 0x0c then s.advanceLine
  else if byte = 0x0d then s.moveCursor 0 s.cursorRow
  else s

/-- A parameter, or its default when it is missing or zero. -/
def paramOr (p : List ℕ) (i default : ℕ) : ℕ :=
  if p.getD i 0 = 0 then default else p.getD i 0

/-- Handles the CSI sequences other than the DEC private modes. -/
def csiAction (s : Screen) (params : List (List ℕ)) (intermediates : List UInt8) (action : Char) :
    Screen :=
  let p := params.map fun sub => sub.head?.getD 0
  let p1 := paramOr p 0
  let p2 := paramOr p 1
  let prefixByte := intermediates.head?
  match action with
  | 'H' | 'f' => s.moveCursor (p2 1 - 1) (p1 1 - 1)
  | 'A' => s.moveCursor s.cursorCol (s.cursorRow - p1 1)
  | 'B' => s.moveCursor s.cursorCol (min (saturatingAdd s.cursorRow (p1 1)) (s.grid.height - 1))
  | 'C' => s.moveCursor (min (saturatingAdd s.cursorCol (p1 1)) (s.grid.width - 1)) s.cursorRow
  | 'D' => s.moveCursor (s.cursorCol - p1 1) s.cursorRow
  | 'G' => s.moveCursor (p1 1 - 1) s.cursorRow
  | 'd' => s.moveCursor s.cursorCol (p1 1 - 1)
  | 'J' => s.eraseInDisplay (p1 0)
  | 'K' => s.eraseInLine (p1 0)
  | 'm' => { s with style := s.style.applySgr p }
  | 'r' => s.setScrollRegion (p1 1 - 1) (p2 s.grid.height - 1)
  | 'u' =>
    if prefixByte = some 0x3e then s.pushKeyboardProtocolFlags (UInt8.ofNat (p.head?.getD 0))
    else if prefixByte = some 0x3c then
      s.popKeyboardProtocolFlags (max ((params.head?.bind List.head?).getD 1) 1)
    else s
  | 'c' =>
    if prefixByte = some 0x3e then s.pushPendingResponse "\x1b[>1;276;0c"
    else if prefixByte = none then s.pushPendingResponse "\x1b[?6c"
    else s
  | 'n' =>
    if prefixByte = some 0x3f then s
    else if p1 0 = 5 then s.pushPendingResponse "\x1b[0n"
    else if p1 0 = 6 then
      s.pushPendingResponse ("\x1b[" ++ toString (saturatingAdd s.cursorRow 1) ++ ";" ++
        toString (saturatingAdd s.cursorCol 1) ++ "R")
    else s
  | _ => s

/-- Handles a CSI sequence. -/
def csiDispatch (s : Screen) (params : List (List ℕ)) (intermediates : List UInt8) (action : Char) :
    Screen :=
  if intermediates.head? = some 0x3f ∧ action = 'h' then s.decPrivateMode params true
  else if intermediates.head? = some 0x3f ∧ action = 'l' then s.decPrivateMode params false
  else s.csiAction params intermediates action

/-- Handles an OSC sequence: of the state that is modelled, only OSC 8 touches any. -/
def oscDispatch (s : Screen) (params : List (List UInt8)) : Screen :=
  match params with
  | [] => s
  | code :: args =>
    if (fromUtf8 code).map trim = some "8" then
      let uri := trim ((args[1]?.bind fromUtf8).getD "")
      s.setHyperlink (if uri.isEmpty then none else some uri)
    else s

/-- Performs an action. -/
def perform (V : Vte) (s : Screen) : Perform → Screen
  | .print c => s.writeChar c ((V.width c).getD 1)
  | .execute byte => s.execute byte
  | .csiDispatch params intermediates _ action => s.csiDispatch params intermediates action
  | .oscDispatch params _ => s.oscDispatch params
  | .escDispatch _ _ _ => s
  | .hook _ _ _ _ => s
  | .put _ => s
  | .unhook => s

end Screen

/-! ## The parser -/

/-- Maximum APC buffer size. -/
def maxApcBufLen : ℕ := 4 * 1024 * 1024

/-- Parser that processes VT sequences and updates the grid. -/
structure VtParser (V : Vte) where
  parser : V.State
  screen : Screen
  apcActive : Bool
  apcBuf : List UInt8
  apcPendingEsc : Bool

namespace VtParser

variable {V : Vte}

/-- Creates a parser with a virtual screen of the given size. -/
def new (V : Vte) (cols rows : ℕ) : VtParser V := ⟨V.init, Screen.new cols rows, false, [], false⟩

/-- Appends a byte to the APC buffer; on overflow the APC state is dropped. -/
def apcPush (p : VtParser V) (byte : UInt8) : VtParser V :=
  if p.apcBuf.length ≥ maxApcBufLen then { p with apcBuf := [], apcActive := false }
  else { p with apcBuf := p.apcBuf ++ [byte] }

/-- Hands a byte to `vte`. -/
def feed (p : VtParser V) (byte : UInt8) : VtParser V :=
  let (parser, actions) := V.advance p.parser byte
  { p with parser := parser, screen := actions.foldl (Screen.perform V) p.screen }

/-- Processes one byte.  A complete APC sequence goes to the image decoder. -/
def advanceByte (p : VtParser V) (byte : UInt8) : VtParser V :=
  if p.apcPendingEsc then
    let p := { p with apcPendingEsc := false }
    if byte = 0x5f then { p with apcActive := true, apcBuf := [] }
    else if byte = 0x5c ∧ p.apcActive then { p with apcBuf := [], apcActive := false }
    else if p.apcActive then (p.apcPush 0x1b).apcPush byte
    else (p.feed 0x1b).feed byte
  else if byte = 0x1b then { p with apcPendingEsc := true }
  else if p.apcActive then p.apcPush byte
  else p.feed byte

/-- Processes a byte stream and updates the grid. -/
def advance (p : VtParser V) (bytes : List UInt8) : VtParser V := bytes.foldl advanceByte p

/-- Resizes the screen (`screen_mut().resize`). -/
def resize (p : VtParser V) (cols rows : ℕ) : VtParser V :=
  { p with screen := p.screen.resize cols rows }

/-- Collects the dirty rows of the screen (`screen_mut().take_dirty_rows`). -/
def takeDirtyRows (p : VtParser V) : List DirtyRow × VtParser V :=
  let (rows, screen) := p.screen.takeDirtyRows
  (rows, { p with screen := screen })

end VtParser

end Nexterm.Vt
