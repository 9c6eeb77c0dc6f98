/-
  SSH through a SOCKS5 proxy (`connect_via_socks5` of the SSH crate): the proxy URL, the negotiation
  and the CONNECT request.

  * `Conn`, `Session`: the connection to the proxy, its answers and what was written to it.
  * `endpoint`, `parseSocks5Credentials`: the URL, split once for each.
  * `readConnect`, `readAuth`: how the other side reads a request (RFC 1928, RFC 1929).
  * `Framed`: every CONNECT request that is sent is read as the target; `Uses`: the proxy that is
    dialed and the credentials that are sent.
  * `framed_and_uses_iff`: the target host has to fit a length byte, and the password must not
    contain '@'.
-/
import Nexterm.Lib.Effects
import Nexterm.Lib.Urls
import Nexterm.Lib.Utf8
import Nexterm.Vt.Text

namespace Nexterm.Ssh

open Effects

/-! ## The proxy -/

/-- What is written to the proxy. -/
inductive Packet where
  | methods (bytes : List UInt8)
  | auth (bytes : List UInt8)
  | connect (bytes : List UInt8)
  deriving DecidableEq

/-- The TCP stream: whether the proxy accepts the connection, the bytes it still answers, the
    address that was dialed and the packets written so far. -/
structure Conn where
  accepts : Bool
  replies : List UInt8
  dialed : Option (List Char × UInt16)
  sent : List Packet
  deriving DecidableEq

/-- A proxy that was not dialed yet. -/
def Conn.fresh (accepts : Bool) (replies : List UInt8) : Conn := ⟨accepts, replies, none, []⟩

/-- Code on the stream; errors are messages. -/
abbrev Session := EStateM String Conn

/-- `TcpStream::connect`. -/
def dial (host : List Char) (port : UInt16) : Session Unit := fun c =>
  let c := { c with dialed := some (host, port) }
  if c.accepts then .ok () c
  else .error s!"failed to connect to the SOCKS5 proxy: {String.ofList host}:{port}" c

/-- `write_all`. -/
def writeAll (packet : Packet) : Session Unit := fun c =>
  .ok () { c with sent := c.sent ++ [packet] }

/-- `read_exact`. -/
def readExact (n : ℕ) : Session (Vector UInt8 n) := fun c =>
  if h : n ≤ c.replies.length then
    .ok ⟨(c.replies.take n).toArray, by simp [h]⟩ { c with replies := c.replies.drop n }
  else .error "early eof" { c with replies := [] }

/-! ## The URL -/

def socksScheme : List Char := "socks5://".toList

def stripScheme (url : List Char) : List Char :=
  if socksScheme.isPrefixOf url then url.drop socksScheme.length else url

/-- If a '@' is present, strip the credentials. -/
def hostPart (withoutScheme : List Char) : List Char :=
  match Urls.splitOnce ['@'] withoutScheme with
  | some (_, hostPart) => hostPart
  | none => withoutScheme

/-- The host and the port of the proxy; 1080 if there is none. -/
def endpoint (socks5Url : List Char) : Session (List Char × UInt16) :=
  let hostPart := hostPart (stripScheme socks5Url)
  if ':' ∈ hostPart then
    let portText := Urls.afterLast ':' hostPart
    match Vt.parseU16 (String.ofList portText) with
    | some port => pure (hostPart.take (hostPart.length - portText.length - 1), port)
    | none => throw s!"invalid SOCKS5 proxy port number: {String.ofList socks5Url}"
  else pure (hostPart, 1080)

/-- Extract credentials from a SOCKS5 URL. -/
def parseSocks5Credentials (url : List Char) : Option (List Char) × Option (List Char) :=
  match Urls.splitOnce ['@'] (stripScheme url) with
  | some (userinfo, _) =>
    match Urls.splitOnce [':'] userinfo with
    | some (user, pass) => (some user, some pass)
    | none => (some userinfo, none)
  | none => (none, none)

/-! ## The handshake -/

/-- `as u8`. -/
def asU8 (n : ℕ) : UInt8 := n.toUInt8

/-- `{:02x}`. -/
def hex2 (b : UInt8) : String := String.ofList ((Nat.toDigits 16 b.toNat).leftpad 2 '0')

/-- The username/password request of RFC 1929. -/
def authRequest (userBytes passBytes : List UInt8) : List UInt8 :=
  0x01 :: asU8 userBytes.length :: userBytes ++ asU8 passBytes.length :: passBytes

/-- Username/password authentication. -/
def authenticate (user pass : List Char) : Session Unit := do
  let userBytes := Utf8.encode user
  let passBytes := Utf8.encode pass
  if userBytes.length > 255 ∨ passBytes.length > 255 then
    throw "SOCKS5: username or password too long (max 255 bytes)"
  else
    writeAll (.auth (authRequest userBytes passBytes))
    let resp ← readExact 2
    if resp[1] ≠ 0x00 then
      throw s!"SOCKS5: authentication failed (user={String.ofList user}, status=0x{hex2 resp[1]})"
    else pure ()

/-- Offer the methods and run the one the proxy selects. -/
def negotiate (user pass : Option (List Char)) : Session Unit := do
  writeAll (.methods (if user.isSome then [0x05, 0x02, 0x00, 0x02] else [0x05, 0x01, 0x00]))
  let resp ← readExact 2
  if resp[0] ≠ 0x05 then
    throw s!"SOCKS5: invalid version (response: {resp.toList})"
  else if resp[1] = 0x00 then pure ()
  else if resp[1] = 0x02 then authenticate (user.getD []) (pass.getD [])
  else if resp[1] = 0xFF then
    throw "SOCKS5: server rejected all offered authentication methods"
  else
    throw s!"SOCKS5: authentication negotiation failed (selected method: 0x{hex2 resp[1]})"

/-- The CONNECT request; the length of the host is cast to a byte. -/
def connectRequest (host : List Char) (port : UInt16) : List UInt8 :=
  let hostBytes := Utf8.encode host
  [0x05, 0x01, 0x00, 0x03, asU8 hostBytes.length] ++ hostBytes ++
    [(port >>> 8).toUInt8, (port &&& 0xFF).toUInt8]

/-- The CONNECT response; the bound address is discarded. -/
def readResponse : Session Unit := do
  let header ← readExact 4
  if header[0] ≠ 0x05 ∨ header[1] ≠ 0x00 then
    throw s!"SOCKS5: CONNECT failed (VER={header[0]}, REP={header[1]})"
  else if header[3] = 0x01 then do let _ ← readExact (4 + 2)
  else if header[3] = 0x03 then do
    let l ← readExact 1
    let _ ← readExact (l[0].toNat + 2)
  else if header[3] = 0x04 then do let _ ← readExact (16 + 2)
  else throw s!"SOCKS5: unknown address type: {header[3]}"

/-- What follows the TCP connection; at the end the stream is the tunnel. -/
def handshake (user pass : Option (List Char)) (host : List Char) (port : UInt16) :
    Session Unit := do
  negotiate user pass
  writeAll (.connect (connectRequest host port))
  readResponse

/-- Establish a connection through a SOCKS5 proxy; `host` and `port` are the target's. -/
def connectViaSocks5 (socks5Url host : List Char) (port : UInt16) : Session Unit := do
  let (socksHost, socksPort) ← endpoint socks5Url
  dial socksHost socksPort
  let (socksUser, socksPass) := parseSocks5Credentials socks5Url
  handshake socksUser socksPass host port

/-- The stream at the end of a connection attempt. -/
def attempt (socks5Url host : List Char) (port : UInt16) (accepts : Bool)
    (replies : List UInt8) : Conn :=
  final (connectViaSocks5 socks5Url host port (.fresh accepts replies))

/-! ## The other side -/

/-- One length byte, then that many bytes. -/
def readCounted : List UInt8 → Option (List UInt8 × List UInt8)
  | [] => none
  | len :: rest =>
    if len.toNat ≤ rest.length then some (rest.take len.toNat, rest.drop len.toNat) else none

/-- Two bytes, the high one first. -/
def readPort : List UInt8 → Option (UInt16 × List UInt8)
  | hi :: lo :: rest => some ((hi.toNat * 256 + lo.toNat).toUInt16, rest)
  | _ => none

/-- A CONNECT request for a domain name: the host, the port and what is left over. -/
def readConnect : List UInt8 → Option (List UInt8 × UInt16 × List UInt8)
  | 0x05 :: 0x01 :: 0x00 :: 0x03 :: body =>
    (readCounted body).bind fun (host, rest) =>
      (readPort rest).map fun (port, left) => (host, port, left)
  | _ => none

/-- A username/password request: both, and what is left over. -/
def readAuth : List UInt8 → Option (List UInt8 × List UInt8 × List UInt8)
  | 0x01 :: body =>
    (readCounted body).bind fun (user, rest) =>
      (readCounted rest).map fun (pass, left) => (user, pass, left)
  | _ => none

theorem readCounted_append {bytes : List UInt8} (h : bytes.length ≤ 255) (rest : List UInt8) :
    readCounted (asU8 bytes.length :: (bytes ++ rest)) = some (bytes, rest) := by
  have hlen : (asU8 bytes.length).toNat = bytes.length := by
    simp [asU8]
    omega
  simp [readCounted, hlen]

/-- A longer text is cut to its length modulo 256. -/
theorem length_of_readCounted {bytes rest host left : List UInt8}
    (h : readCounted (asU8 bytes.length :: (bytes ++ rest)) = some (host, left)) :
    host.length = bytes.length % 256 := by
  have hlen : (asU8 bytes.length).toNat = bytes.length % 256 := by simp [asU8]
  have hle : bytes.length % 256 ≤ bytes.length := Nat.mod_le _ _
  simp only [readCounted, hlen] at h
  rw [if_pos (by simp; omega)] at h
  cases h
  simp
  omega

theorem readPort_eq (port : UInt16) (rest : List UInt8) :
    readPort ((port >>> 8).toUInt8 :: (port &&& 0xFF).toUInt8 :: rest) = some (port, rest) := by
  have hlt : port.toNat < 65536 := port.toNat_lt
  have hhigh : (port >>> 8).toUInt8.toNat = port.toNat / 256 := by
    have hshift : port.toNat >>> 8 = port.toNat / 256 := Nat.shiftRight_eq_div_pow port.toNat 8
    rw [UInt16.toNat_toUInt8, UInt16.toNat_shiftRight]
    change port.toNat >>> 8 % 2 ^ 8 = _
    rw [hshift]
    omega
  have hlow : (port &&& 0xFF).toUInt8.toNat = port.toNat % 256 := by
    have hand : port.toNat &&& 255 = port.toNat % 256 :=
      Nat.and_two_pow_sub_one_eq_mod port.toNat 8
    rw [UInt16.toNat_toUInt8, UInt16.toNat_and]
    change (port.toNat &&& 255) % 2 ^ 8 = _
    rw [hand]
    omega
  have heq : port.toNat / 256 * 256 + port.toNat % 256 = port.toNat := by omega
  rw [readPort, hhigh, hlow, heq]
  simp

theorem readConnect_connectRequest_iff (host : List Char) (port : UInt16) :
    readConnect (connectRequest host port) = some (Utf8.encode host, port, []) ↔
      (Utf8.encode host).length ≤ 255 := by
  constructor
  · intro h
    by_contra hlong
    simp only [connectRequest, readConnect, List.cons_append, List.nil_append] at h
    rcases Option.bind_eq_some_iff.1 h with ⟨⟨host', left⟩, hcounted, hport⟩
    rcases Option.map_eq_some_iff.1 hport with ⟨⟨port', left'⟩, -, heq⟩
    have hlen := length_of_readCounted hcounted
    simp only [Prod.mk.injEq] at heq
    rw [heq.1] at hlen
    omega
  · intro h
    have hport := readPort_eq port []
    simp only [connectRequest, readConnect, List.cons_append, List.nil_append,
      readCounted_append h, Option.bind_some, hport, Option.map_some]

theorem readAuth_authRequest {user pass : List UInt8} (huser : user.length ≤ 255)
    (hpass : pass.length ≤ 255) : readAuth (authRequest user pass) = some (user, pass, []) := by
  have hrest := readCounted_append hpass []
  rw [List.append_nil] at hrest
  simp [authRequest, readAuth, readCounted_append huser, hrest]

/-! ## The stream during the handshake -/

/-- An address was dialed and all packets have the property. -/
def Good (dialed : Option (List Char × UInt16)) (P : Packet → Prop) (c : Conn) : Prop :=
  c.dialed = dialed ∧ ∀ p ∈ c.sent, P p

/-- The packets for these credentials and this target. -/
def Genuine (user pass : Option (List Char)) (host : List Char) (port : UInt16) : Packet → Prop
  | .methods _ => True
  | .auth bytes =>
    readAuth bytes = some (Utf8.encode (user.getD []), Utf8.encode (pass.getD []), [])
  | .connect bytes => bytes = connectRequest host port

section
variable {dialed : Option (List Char × UInt16)} {P : Packet → Prop}

theorem keeps_readExact (n : ℕ) : Keeps (Good dialed P) (readExact n) := by
  intro c hc
  simp only [readExact]
  split_ifs
  · exact hc
  · exact hc

theorem keeps_writeAll {p : Packet} (hp : P p) : Keeps (Good dialed P) (writeAll p) := by
  intro c hc
  refine ⟨hc.1, ?_⟩
  intro q hq
  rcases List.mem_append.1 hq with hq | hq
  · exact hc.2 q hq
  · rw [List.mem_singleton] at hq
    exact hq ▸ hp

end

variable {url user pass host portText : List Char} {port : UInt16} {e : List Char × UInt16}

theorem keeps_authenticate {user pass : Option (List Char)} {dialed : Option (List Char × UInt16)} :
    Keeps (Good dialed (Genuine user pass host port))
      (authenticate (user.getD []) (pass.getD [])) := by
  simp only [authenticate]
  split_ifs with hlong
  · exact keeps_throw _
  · rw [not_or] at hlong
    refine keeps_bind (keeps_writeAll ?_) fun _ =>
      keeps_bind (keeps_readExact 2) fun _ => keeps_ite (keeps_throw _) (keeps_pure _)
    exact readAuth_authRequest (by omega) (by omega)

theorem keeps_negotiate {user pass : Option (List Char)} {dialed : Option (List Char × UInt16)} :
    Keeps (Good dialed (Genuine user pass host port)) (negotiate user pass) := by
  refine keeps_bind (keeps_writeAll trivial) fun _ => keeps_bind (keeps_readExact 2) fun resp => ?_
  refine keeps_ite (keeps_throw _) (keeps_ite (keeps_pure _) (keeps_ite keeps_authenticate ?_))
  exact keeps_ite (keeps_throw _) (keeps_throw _)

theorem keeps_readResponse {dialed : Option (List Char × UInt16)} {P : Packet → Prop} :
    Keeps (Good dialed P) readResponse := by
  refine keeps_bind (keeps_readExact 4) fun header => keeps_ite (keeps_throw _) ?_
  refine keeps_ite (keeps_bind (keeps_readExact _) fun _ => keeps_pure _) ?_
  refine keeps_ite (keeps_bind (keeps_readExact 1) fun l =>
    keeps_bind (keeps_readExact _) fun _ => keeps_pure _) ?_
  exact keeps_ite (keeps_bind (keeps_readExact _) fun _ => keeps_pure _) (keeps_throw _)

theorem keeps_handshake {user pass : Option (List Char)} {dialed : Option (List Char × UInt16)} :
    Keeps (Good dialed (Genuine user pass host port)) (handshake user pass host port) :=
  keeps_bind keeps_negotiate fun _ =>
    keeps_bind (keeps_writeAll rfl) fun _ => keeps_readResponse

/-- With a proper URL the proxy is dialed and only packets for its credentials and the target are
    written, however far the handshake gets. -/
theorem attempt_good (he : endpoint url = pure e) (host : List Char) (port : UInt16)
    (accepts : Bool) (replies : List UInt8) :
    Good (some e) (Genuine (parseSocks5Credentials url).1 (parseSocks5Credentials url).2 host port)
      (attempt url host port accepts replies) := by
  simp only [attempt, connectViaSocks5, he, pure_bind]
  refine final_bind ?_ fun _ => keeps_handshake
  have hdial : final (dial e.1 e.2 (.fresh accepts replies)) = ⟨accepts, replies, some e, []⟩ := by
    cases accepts <;> rfl
  rw [hdial]
  exact ⟨rfl, by simp⟩

theorem endpoint_cases (url : List Char) :
    (∃ e, endpoint url = pure e) ∨ ∃ message, endpoint url = throw message := by
  simp only [endpoint]
  split_ifs with hcolon
  · cases hport : Vt.parseU16 (String.ofList (Urls.afterLast ':' (hostPart (stripScheme url)))) with
    | some port => exact Or.inl ⟨_, rfl⟩
    | none => exact Or.inr ⟨_, rfl⟩
  · exact Or.inl ⟨_, rfl⟩

/-! ## The CONNECT request -/

/-- Every CONNECT request that is sent is read as the target, with nothing left over. -/
def Framed (host : List Char) (port : UInt16) : Prop :=
  ∀ url accepts replies bytes, Packet.connect bytes ∈ (attempt url host port accepts replies).sent →
    readConnect bytes = some (Utf8.encode host, port, [])

theorem connect_sent {accepts : Bool} {replies bytes : List UInt8}
    (h : Packet.connect bytes ∈ (attempt url host port accepts replies).sent) :
    bytes = connectRequest host port := by
  rcases endpoint_cases url with ⟨e, he⟩ | ⟨message, he⟩
  · exact (attempt_good he host port accepts replies).2 _ h
  · simp only [attempt, connectViaSocks5, he] at h
    cases h

theorem sent_without_auth (host : List Char) (port : UInt16) :
    (attempt [] host port true [0x05, 0x00]).sent =
      [.methods [0x05, 0x01, 0x00], .connect (connectRequest host port)] := rfl

theorem framed_iff (host : List Char) (port : UInt16) :
    Framed host port ↔ (Utf8.encode host).length ≤ 255 := by
  constructor
  · intro h
    rw [← readConnect_connectRequest_iff host port]
    refine h [] true [0x05, 0x00] _ ?_
    rw [sent_without_auth]
    simp
  · intro h url accepts replies bytes hsent
    rw [connect_sent hsent]
    exact (readConnect_connectRequest_iff host port).2 h

/-! ## The URL of the proxy -/

/-- A proxy URL with credentials. -/
def proxyUrl (user pass host portText : List Char) : List Char :=
  socksScheme ++ ((user ++ ':' :: pass) ++ ['@'] ++ (host ++ ':' :: portText))

/-- The proxy that is dialed and the credentials, those of the URL and those sent. -/
structure Uses (url user pass host : List Char) (port : UInt16) : Prop where
  dials : ∀ target targetPort accepts replies,
    (attempt url target targetPort accepts replies).dialed = some (host, port)
  credentials : parseSocks5Credentials url = (some user, some pass)
  sends : ∀ target targetPort accepts replies bytes,
    Packet.auth bytes ∈ (attempt url target targetPort accepts replies).sent →
      readAuth bytes = some (Utf8.encode user, Utf8.encode pass, [])

theorem stripScheme_append (rest : List Char) : stripScheme (socksScheme ++ rest) = rest := by
  rw [stripScheme, if_pos (by simp), List.drop_left]

theorem colon_notMem_of_parseU16 (h : Vt.parseU16 (String.ofList portText) = some port) :
    ':' ∉ portText := by
  intro hmem
  have hdigits : ∀ ds : List Char, ':' ∈ ds → Vt.digitsValue ds = none := by
    intro ds hds
    rw [Vt.digitsValue, if_pos]
    right
    simp only [Bool.not_eq_true', List.all_eq_false]
    exact ⟨':', hds, by decide⟩
  have hparse : Vt.parseUnsigned 65535 (String.ofList portText) = none := by
    simp only [Vt.parseUnsigned, String.toList_ofList]
    split
    · next _ ds =>
      have hds : ':' ∈ ds := by simpa using hmem
      rw [hdigits ds hds]
      rfl
    · rw [hdigits portText hmem]
      rfl
  rw [Vt.parseU16, hparse] at h
  cases h

/-- The port is what stands behind the last ':'. -/
theorem endpoint_of_hostPart (hpart : hostPart (stripScheme url) = host ++ ':' :: portText)
    (hport : Vt.parseU16 (String.ofList portText) = some port) :
    endpoint url = pure (host, port) := by
  have hafter := Urls.afterLast_append (colon_notMem_of_parseU16 hport) host
  simp only [endpoint, hpart, hafter, hport]
  rw [if_pos (by simp)]
  have hlen : (host ++ ':' :: portText).length - portText.length - 1 = host.length := by
    simp
    omega
  rw [hlen, List.take_left]

theorem attempt_dialed (he : endpoint url = pure e) (target : List Char) (targetPort : UInt16)
    (accepts : Bool) (replies : List UInt8) :
    (attempt url target targetPort accepts replies).dialed = some e :=
  (attempt_good he target targetPort accepts replies).1

/-- Everything up to the first '@' is taken for the credentials. -/
theorem splitOnce_at {pre : List Char} (h : '@' ∉ pre) (rest : List Char) :
    Urls.splitOnce ['@'] (stripScheme (socksScheme ++ (pre ++ ['@'] ++ rest))) =
      some (pre, rest) := by
  rw [stripScheme_append, Urls.splitOnce_append h]

theorem uses_of_notMem (hat : '@' ∉ user) (hcolon : ':' ∉ user)
    (hport : Vt.parseU16 (String.ofList portText) = some port) (hpass : '@' ∉ pass) :
    Uses (proxyUrl user pass host portText) user pass host port := by
  have hpre : '@' ∉ user ++ ':' :: pass := by
    simp [hat, hpass]
  have hsplit := splitOnce_at hpre (host ++ ':' :: portText)
  have hendpoint : endpoint (proxyUrl user pass host portText) = pure (host, port) := by
    refine endpoint_of_hostPart ?_ hport
    simp only [hostPart, proxyUrl, hsplit]
  have huserinfo : Urls.splitOnce [':'] (user ++ ':' :: pass) = some (user, pass) := by
    have happend : Urls.splitOnce [':'] (user ++ [':'] ++ pass) = some (user, pass) :=
      Urls.splitOnce_append hcolon pass
    rwa [List.append_assoc] at happend
  have hcredentials : parseSocks5Credentials (proxyUrl user pass host portText) =
      (some user, some pass) := by
    simp only [parseSocks5Credentials, proxyUrl, hsplit, huserinfo]
  refine ⟨attempt_dialed hendpoint, hcredentials, ?_⟩
  intro target targetPort accepts replies bytes hsent
  have hgenuine := (attempt_good hendpoint target targetPort accepts replies).2 _ hsent
  rw [hcredentials] at hgenuine
  exact hgenuine

/-- With a '@' in the password the rest of it is dialed as part of the host. -/
theorem not_uses_of_mem (hat : '@' ∉ user) (hhost : '@' ∉ host)
    (hport : Vt.parseU16 (String.ofList portText) = some port) (hpass : '@' ∈ pass) :
    ¬ Uses (proxyUrl user pass host portText) user pass host port := by
  intro huses
  rcases List.eq_append_cons_of_mem hpass with ⟨pre, post, rfl, hpre⟩
  have hcredentials : '@' ∉ user ++ ':' :: pre := by
    simp [hat, hpre]
  have hsplit := splitOnce_at hcredentials ((post ++ '@' :: host) ++ ':' :: portText)
  have hurl : proxyUrl user (pre ++ '@' :: post) host portText =
      socksScheme ++ ((user ++ ':' :: pre) ++ ['@'] ++ ((post ++ '@' :: host) ++ ':' :: portText)) := by
    simp [proxyUrl]
  have hendpoint : endpoint (proxyUrl user (pre ++ '@' :: post) host portText) =
      pure (post ++ '@' :: host, port) := by
    refine endpoint_of_hostPart ?_ hport
    simp only [hostPart, hurl, hsplit]
  have hdialed := (attempt_dialed hendpoint [] 0 true []).symm.trans (huses.dials [] 0 true [])
  have heq : post ++ '@' :: host = host := by simpa using hdialed
  exact hhost (heq ▸ by simp)

/-- **The target host has to fit its length byte, and the password must not contain '@'.** -/
theorem framed_and_uses_iff (target : List Char) (targetPort : UInt16) (hat : '@' ∉ user)
    (hcolon : ':' ∉ user) (hhost : '@' ∉ host)
    (hport : Vt.parseU16 (String.ofList portText) = some port) :
    (Framed target targetPort ↔ (Utf8.encode target).length ≤ 255) ∧
      (Uses (proxyUrl user pass host portText) user pass host port ↔ '@' ∉ pass) := by
  refine ⟨framed_iff target targetPort, ?_, uses_of_notMem hat hcolon hport⟩
  intro huses hpass
  exact not_uses_of_mem hat hhost hport hpass huses

theorem framed_and_uses_iff_example :
    (Framed "host".toList 22 ↔ (Utf8.encode "host".toList).length ≤ 255) ∧
      (Uses (proxyUrl "u".toList "p:w".toList "h".toList "1080".toList) "u".toList "p:w".toList
        "h".toList 1080 ↔ '@' ∉ "p:w".toList) :=
  framed_and_uses_iff _ _ (by decide) (by decide) (by decide) (by decide)

/-- A host of 256 bytes is announced as empty, and "p@ss" makes "ss@h" the host of the proxy. -/
theorem long_host_and_at_sign :
    (∃ bytes, Packet.connect bytes ∈
        (attempt [] (List.replicate 256 'a') 22 true [0x05, 0x00]).sent ∧
      readConnect bytes ≠ some (Utf8.encode (List.replicate 256 'a'), 22, [])) ∧
    (attempt (proxyUrl "u".toList "p@ss".toList "h".toList "1080".toList) "host".toList 22 true
      []).dialed = some ("ss@h".toList, 1080) := by
  refine ⟨⟨connectRequest (List.replicate 256 'a') 22, ?_, ?_⟩, ?_⟩
  · rw [sent_without_auth]
    exact List.mem_cons_of_mem _ List.mem_cons_self
  · rw [ne_eq, readConnect_connectRequest_iff]
    have hlen : (Utf8.encode (List.replicate 256 'a')).length = 256 := by
      simp only [Utf8.encode, List.length_flatMap, List.map_replicate, List.sum_replicate]
      decide
    omega
  · decide

end Nexterm.Ssh
