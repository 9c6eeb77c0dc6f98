/-
  The guard of the OIDC userinfo endpoint (`web/oauth.rs`): the host in a discovery document must
  belong to the domain of the issuer and must not be an internal one.

  * `validateUserinfoEndpoint`: the guard; it extracts hosts by splitting strings.
  * `Safe`: what it is for; the host that a standard parser extracts belongs to the issuer.
  * `userinfo_guard_iff`: an accepted pair is safe if both URLs are plain; if one is not, exactly
    if the host that the parser extracts passes the checks of the guard.

  `lower` is `str::to_lowercase`.
-/
import Nexterm.Lib.Urls

namespace Nexterm.Web

/-- `str::to_lowercase` makes the prefix of an HTTPS URL of ASCII letters only. -/
def LowersAscii (lower : String → String) : Prop :=
  ∀ s, "https://".toList.isPrefixOf (lower s).toList = true →
    ∃ scheme rest, s.toList = scheme ++ Urls.separator ++ rest ∧
      scheme.map Char.toLower = "https".toList

/-- `str::parse::<u8>`. -/
def parseU8 (s : List Char) : Option ℕ :=
  let digits := match s with
    | '+' :: digits => digits
    | digits => digits
  if digits = [] ∨ ¬digits.all Char.isDigit then none
  else
    let n := digits.foldl (fun n c => 10 * n + (c.toNat - '0'.toNat)) 0
    if n ≤ 255 then some n else none

/-- The second piece of a list that is split at every occurrence of a pattern. -/
def splitNth1 (pat l : List Char) : Option (List Char) :=
  (Urls.splitOnce pat l).map fun s => ((Urls.splitOnce pat s.2).map Prod.fst).getD s.2

section

variable (lower : String → String)

/-- Extract the host portion from a URL (strip any port number). -/
def extractHost (url : String) : Option String := do
  let afterScheme ← splitNth1 "://".toList url.toList
  let hostWithPort := afterScheme.takeWhile (· ≠ '/')
  let host := hostWithPort.takeWhile (· ≠ ':')
  if host = [] then none else some (lower (String.ofList host))

/-- Reject access to internal IPs and link-local addresses. -/
def isDisallowedHost (host : String) : Bool :=
  let host := lower host
  let startsWith (pre : String) := pre.toList.isPrefixOf host.toList
  if host = "localhost" ∨ host = "127.0.0.1" ∨ host = "::1" ∨ startsWith "127." ∨
      startsWith "169.254." ∨ startsWith "10." ∨ startsWith "192.168." ∨ startsWith "0.0.0.0" ∨
      startsWith "fe80:" ∨ startsWith "fc" ∨ startsWith "fd" then true
  else if startsWith "172." then
    ((parseU8 ((host.toList.drop 4).takeWhile (· ≠ '.'))).map fun n => decide (16 ≤ n ∧ n ≤ 31)).getD
      false
  else false

/-- Check whether `host` is `issuerHost` or a subdomain of it: a suffix behind a dot. -/
def isSameOrSubdomain (host issuerHost : String) : Bool :=
  host = issuerHost ∨
    (issuerHost.toList.isSuffixOf host.toList ∧ host.toList.length > issuerHost.toList.length ∧
      host.toList[host.toList.length - issuerHost.toList.length - 1]? = some '.')

/-- Validate a userinfo endpoint. -/
def validateUserinfoEndpoint (userinfo issuerUrl : String) : Except String Unit :=
  if !"https://".toList.isPrefixOf (lower userinfo).toList then
    .error s!"OIDC userinfo_endpoint must use HTTPS: {userinfo}"
  else match extractHost lower userinfo with
    | none => .error s!"cannot extract host from OIDC userinfo_endpoint: {userinfo}"
    | some host =>
      if isDisallowedHost lower host then
        .error s!"OIDC userinfo_endpoint targets the internal network (SSRF defense): host={host}"
      else match extractHost lower issuerUrl with
        | none => .error s!"cannot extract host from OIDC issuer_url: {issuerUrl}"
        | some issuerHost =>
          if !isSameOrSubdomain host issuerHost then
            .error (s!"OIDC userinfo_endpoint host '{host}' differs from issuer_url " ++
              s!"'{issuerHost}' (SSRF defense)")
          else .ok ()

end

/-! ## What the guard is for -/

/-- The host belongs to the issuer: it is the issuer's or ends with it behind a dot. -/
def BelongsTo (host issuerHost : String) : Prop :=
  host = issuerHost ∨ ∃ labels, host.toList = labels ++ '.' :: issuerHost.toList

/-- The host that a standard parser extracts from a URL, in lower case. -/
def standardHost (lower : String → String) (url : String) : Option String :=
  (Urls.host url.toList).map fun host => lower (String.ofList host)

/-- The scheme is https, and the host belongs to the issuer and is not an internal one. -/
def Safe (lower : String → String) (userinfo issuerUrl : String) : Prop :=
  (∃ scheme, Urls.scheme userinfo.toList = some scheme ∧
      scheme.map Char.toLower = "https".toList) ∧
    ∃ host issuerHost, standardHost lower userinfo = some host ∧
      standardHost lower issuerUrl = some issuerHost ∧ BelongsTo host issuerHost ∧
      isDisallowedHost lower host = false

/-- Nothing but a host and perhaps a port stands between the scheme and the path. -/
def PlainUrl (url : String) : Prop := ∀ rest, Urls.rest url.toList = some rest → Urls.Plain rest

theorem isSameOrSubdomain_iff {host issuerHost : String} :
    isSameOrSubdomain host issuerHost = true ↔ BelongsTo host issuerHost := by
  rw [isSameOrSubdomain, decide_eq_true_iff, BelongsTo]
  refine or_congr_right ?_
  rw [List.isSuffixOf_iff_suffix]
  constructor
  · rintro ⟨⟨labels, hlabels⟩, hlength, hdot⟩
    rw [← hlabels] at hlength hdot
    rw [List.length_append] at hlength hdot
    rw [List.getElem?_append_left (by omega),
      show labels.length + issuerHost.toList.length - issuerHost.toList.length - 1 =
        labels.length - 1 by omega] at hdot
    rcases List.eq_nil_or_concat labels with rfl | ⟨labels, last, rfl⟩
    · simp at hlength
    · rw [List.concat_eq_append, List.length_append, List.length_singleton, Nat.add_sub_cancel,
        List.getElem?_concat_length] at hdot
      obtain rfl := Option.some.inj hdot
      exact ⟨labels, by rw [← hlabels, List.concat_eq_append, List.append_assoc]; rfl⟩
  · rintro ⟨labels, hlabels⟩
    rw [hlabels, List.length_append, List.length_cons]
    refine ⟨⟨labels ++ ['.'], by simp⟩, by omega, ?_⟩
    rw [show labels.length + (issuerHost.toList.length + 1) - issuerHost.toList.length - 1 =
      labels.length by omega, List.getElem?_append_right le_rfl, Nat.sub_self]
    rfl

/-! ## What the guard extracts -/

variable {lower : String → String} {url userinfo issuerUrl host : String}

/-- The second piece of the split agrees with the whole rest up to the first ':'. -/
theorem takeWhile_piece {p : Char → Bool} (hp : p ':' = false) (rest : List Char) :
    (((Urls.splitOnce Urls.separator rest).map Prod.fst).getD rest).takeWhile p =
      rest.takeWhile p := by
  cases hsplit : Urls.splitOnce Urls.separator rest with
  | none => rfl
  | some pieces =>
    show pieces.1.takeWhile p = _
    rw [Urls.eq_of_splitOnce hsplit, List.append_assoc, List.takeWhile_append]
    split_ifs with hall
    · rw [show Urls.separator ++ pieces.2 = ':' :: '/' :: '/' :: pieces.2 from rfl,
        List.takeWhile_cons_of_neg (by simp [hp]), List.append_nil]
      exact (List.takeWhile_prefix p).eq_of_length hall
    · rfl

theorem extractHost_eq_some_iff : extractHost lower url = some host ↔
    ∃ rest, Urls.rest url.toList = some rest ∧ Urls.simpleHost rest ≠ [] ∧
      lower (String.ofList (Urls.simpleHost rest)) = host := by
  have hhost : ∀ rest : List Char,
      ((((Urls.splitOnce Urls.separator rest).map Prod.fst).getD rest).takeWhile
        (· ≠ '/')).takeWhile (· ≠ ':') = Urls.simpleHost rest := by
    intro rest
    rw [List.takeWhile_takeWhile, takeWhile_piece (by simp)]
    simp [Urls.simpleHost]
  unfold extractHost splitNth1 Urls.rest
  rw [show "://".toList = Urls.separator from rfl]
  cases Urls.splitOnce Urls.separator url.toList with
  | none => simp
  | some pieces =>
    simp only [Option.map_some, Option.bind_eq_bind, Option.bind_some, hhost]
    split_ifs with hempty
    · simp [hempty]
    · simp [hempty]

theorem validate_ok (h : validateUserinfoEndpoint lower userinfo issuerUrl = .ok ()) :
    "https://".toList.isPrefixOf (lower userinfo).toList = true ∧
      ∃ host issuerHost, extractHost lower userinfo = some host ∧
        extractHost lower issuerUrl = some issuerHost ∧
        isSameOrSubdomain host issuerHost = true ∧ isDisallowedHost lower host = false := by
  unfold validateUserinfoEndpoint at h
  split_ifs at h with hscheme
  split at h
  · cases h
  · next host hhost =>
    split_ifs at h with hdisallowed
    split at h
    · cases h
    · next issuerHost hissuer =>
      split_ifs at h with hsame
      exact ⟨by simpa using hscheme, host, issuerHost, hhost, hissuer, by simpa using hsame,
        by simpa using hdisallowed⟩

/-- In a plain URL the guard and the parser read one host. -/
theorem standardHost_of_plain (hplain : PlainUrl url) (h : extractHost lower url = some host) :
    standardHost lower url = some host := by
  obtain ⟨rest, hrest, -, rfl⟩ := extractHost_eq_some_iff.1 h
  rw [standardHost, Urls.host, hrest]
  show some (lower (String.ofList (Urls.hostOf _))) = _
  rw [(hplain rest hrest).hostOf_eq]

/-- An HTTPS URL has the scheme that it seems to have. -/
theorem scheme_of_prefix (hlower : LowersAscii lower)
    (h : "https://".toList.isPrefixOf (lower url).toList = true) :
    ∃ scheme, Urls.scheme url.toList = some scheme ∧
      scheme.map Char.toLower = "https".toList := by
  obtain ⟨scheme, rest, hurl, hscheme⟩ := hlower url h
  have hcolon : ':' ∉ scheme := by
    intro hmem
    have := List.mem_map_of_mem (f := Char.toLower) hmem
    rw [hscheme] at this
    revert this
    decide
  refine ⟨scheme, ?_, hscheme⟩
  rw [hurl, Urls.scheme]
  show (Urls.splitOnce (':' :: "//".toList) (scheme ++ ':' :: "//".toList ++ rest)).map _ = _
  rw [Urls.splitOnce_append hcolon]
  rfl

/-- **The guard is right about plain URLs.**  If one of the two is not plain, an accepted pair is
    safe exactly if the host that the parser extracts would have been accepted. -/
theorem userinfo_guard_iff (lower : String → String) (hlower : LowersAscii lower)
    (userinfo issuerUrl : String)
    (h : validateUserinfoEndpoint lower userinfo issuerUrl = .ok ()) :
    Safe lower userinfo issuerUrl ↔
      (PlainUrl userinfo ∧ PlainUrl issuerUrl) ∨
        ∃ host issuerHost, standardHost lower userinfo = some host ∧
          standardHost lower issuerUrl = some issuerHost ∧
          isSameOrSubdomain host issuerHost = true ∧ isDisallowedHost lower host = false := by
  obtain ⟨hat, host, issuerHost, hhost, hissuer, hsame, hallowed⟩ := validate_ok h
  have hscheme := scheme_of_prefix hlower hat
  constructor
  · rintro ⟨-, host, issuerHost, hhost, hissuer, hbelongs, hallowed⟩
    exact .inr ⟨host, issuerHost, hhost, hissuer, isSameOrSubdomain_iff.2 hbelongs, hallowed⟩
  · rintro (⟨hplain, hplain'⟩ | ⟨host, issuerHost, hhost, hissuer, hsame, hallowed⟩)
    · exact ⟨hscheme, host, issuerHost, standardHost_of_plain hplain hhost,
        standardHost_of_plain hplain' hissuer, isSameOrSubdomain_iff.1 hsame, hallowed⟩
    · exact ⟨hscheme, host, issuerHost, hhost, hissuer, isSameOrSubdomain_iff.1 hsame, hallowed⟩

/-- Lower case of the ASCII letters. -/
def asciiLower (s : String) : String := String.ofList (s.toList.map Char.toLower)

theorem eq_of_toLower {c d : Char} (h : c.toLower = d) (hd : d.val < 'a'.val) : c = d := by
  subst h
  unfold Char.toLower at hd ⊢
  split_ifs at hd ⊢ with hupper
  · have h1 := hupper.1
    have h2 := hupper.2
    change c.val + ('a'.val - 'A'.val) < 'a'.val at hd
    simp only [UInt32.lt_iff_toNat_lt, UInt32.le_iff_toNat_le, UInt32.toNat_add, ge_iff_le] at *
    simp at *
    omega
  · rfl

theorem lowersAscii_asciiLower : LowersAscii asciiLower := by
  intro s h
  rw [show (asciiLower s).toList = s.toList.map Char.toLower from String.toList_ofList] at h
  obtain ⟨tail, htail⟩ := List.isPrefixOf_iff_prefix.1 h
  obtain ⟨before, rest, hs, hbefore, -⟩ := List.map_eq_append_iff.1 htail.symm
  have hsplit : before.map Char.toLower = "https".toList ++ "://".toList := hbefore
  obtain ⟨scheme, sep, rfl, hscheme, hsep⟩ := List.map_eq_append_iff.1 hsplit
  refine ⟨scheme, rest, ?_, hscheme⟩
  rw [hs]
  congr 2
  show sep = [':', '/', '/']
  change sep.map Char.toLower = [':', '/', '/'] at hsep
  simp only [List.map_eq_cons_iff, List.map_eq_nil_iff] at hsep
  obtain ⟨c, _, rfl, hc, d, _, rfl, hd, e, _, rfl, he, rfl⟩ := hsep
  rw [eq_of_toLower hc (by decide), eq_of_toLower hd (by decide), eq_of_toLower he (by decide)]

/-- A URL is plain by what stands behind its scheme. -/
theorem plainUrl_of_rest {rest : List Char} (hrest : Urls.rest url.toList = some rest)
    (hcredentials : '@' ∉ Urls.authority rest) (hbrackets : (Urls.authority rest).head? ≠ some '[')
    (hdelimiter : (Urls.simpleHost rest).all (fun c => !Urls.isDelimiter c) = true) :
    PlainUrl url := by
  intro rest' hrest'
  obtain rfl := Option.some.inj (hrest.symm.trans hrest')
  refine ⟨hcredentials, hbrackets, ?_⟩
  intro c hc
  simpa using List.all_eq_true.1 hdelimiter c hc

theorem userinfo_guard_plain :
    Safe asciiLower "https://idp.example.com/userinfo" "https://example.com" := by
  refine (userinfo_guard_iff asciiLower lowersAscii_asciiLower _ _ (by decide +kernel)).2 (.inl ?_)
  constructor
  · exact @plainUrl_of_rest _ "idp.example.com/userinfo".toList (by decide +kernel)
      (by decide +kernel) (by decide +kernel) (by decide +kernel)
  · exact @plainUrl_of_rest _ "example.com".toList (by decide +kernel)
      (by decide +kernel) (by decide +kernel) (by decide +kernel)

/-- The guard takes the user name of the credentials for the host, and it does not know that a
    backslash ends the authority. -/
theorem userinfo_guard_fooled :
    (validateUserinfoEndpoint asciiLower "https://example.com:x@169.254.169.254/"
          "https://example.com" = .ok () ∧
        ¬Safe asciiLower "https://example.com:x@169.254.169.254/" "https://example.com") ∧
      validateUserinfoEndpoint asciiLower "https://evil.com\\.example.com/"
          "https://example.com" = .ok () ∧
        ¬Safe asciiLower "https://evil.com\\.example.com/" "https://example.com" := by
  refine ⟨⟨by decide +kernel, ?_⟩, by decide +kernel, ?_⟩
  · rintro ⟨-, host, issuerHost, hhost, -, -, hallowed⟩
    have hinternal : standardHost asciiLower "https://example.com:x@169.254.169.254/" =
      some "169.254.169.254" := by decide +kernel
    obtain rfl := Option.some.inj (hinternal.symm.trans hhost)
    exact absurd hallowed (by decide +kernel)
  · rintro ⟨-, host, issuerHost, hhost, hissuer, hbelongs, -⟩
    have hevil : standardHost asciiLower "https://evil.com\\.example.com/" = some "evil.com" := by
      decide +kernel
    have hexample : standardHost asciiLower "https://example.com" = some "example.com" := by
      decide +kernel
    obtain rfl := Option.some.inj (hevil.symm.trans hhost)
    obtain rfl := Option.some.inj (hexample.symm.trans hissuer)
    exact absurd (isSameOrSubdomain_iff.2 hbelongs) (by decide +kernel)

end Nexterm.Web
