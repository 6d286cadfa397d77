import GenericApp.Core.RateLimit
import Mathlib.Data.List.TakeWhile

/-!
# Where a webhook is delivered

`test_webhook_for_user` sends one request. The host of the target is resolved here, all of its addresses are checked,
and the first is written into the URL in place of the host, so that nothing resolves it again. The host is still named
in the header and in the handshake, without the dots that it may end with (`test_webhook_pinned`).

What parses URLs and addresses, resolves names and sends requests is a parameter, and so is the body that is signed.
-/

namespace GenericApp

open Py

/-! ### What is asked -/

/-- `ParseResult`. The authority ends before the first of `/`, `?` and `#`. -/
structure ParsedUrl where
  scheme : String
  hostname : Option String
  port : Option ℕ
  path : String
  params : String
  query : String
  username : Option String
  password : Option String
  hostname_plain : ∀ host ∈ hostname, ∀ c ∈ host.toList, c ∉ ['/', '?', '#']

inductive AddressFamily
  | inet | inet6 | other
deriving DecidableEq

structure WebhookRequest where
  method : String
  url : String
  content : List UInt8
  headers : List (String × String)
  sniHostname : String
deriving DecidableEq

/-- How a request ends: the URL is refused and nothing is sent; `httpx.HTTPError`; or a status, and the chunks of a body
that may break off with such an error. -/
inductive PostOutcome
  | invalidUrl
  | httpError (message : String)
  | answered (statusCode : ℕ) (chunks : List (List UInt8)) (brokenBy : Option String)

structure WebhookWorld (Address : Type) where
  /-- `urlparse`, with the port. None where one of them raises. -/
  urlparse : String → Option ParsedUrl
  ipAddress : String → Option Address
  isGlobal : Address → Bool
  isMulticast : Address → Bool
  isUnspecified : Address → Bool
  version : Address → ℕ
  str : Address → String
  /-- `host.encode("idna")` -/
  encodeIdna : String → Option String
  /-- Families and addresses. None where it raises. -/
  getaddrinfo : String → ℕ → Option (List (AddressFamily × String))
  hmac : String → List UInt8 → String
  rawBody : List UInt8
  post : WebhookRequest → PostOutcome
  /-- `content.decode("utf-8", errors="replace")` -/
  decode : List UInt8 → String

/-- `WebhookEndpoint` -/
structure WebhookEndpoint where
  targetUrl : String
  secret : String
  lastTestedAt : Option DateTime
  lastResponseStatus : Option ℕ
deriving DecidableEq

/-- What is returned. -/
structure WebhookTestResponse where
  delivered : Bool
  statusCode : Option ℕ
  responsePreview : Option String
  error : Option String

def unprocessable (detail : String) : Raised := .http { statusCode := 422, detail := detail }

/-- `s.rstrip(".")` -/
def rstripDots (s : String) : String := String.ofList ((s.toList.reverse.dropWhile (· = '.')).reverse)

section Delivery

variable {Address : Type} (w : WebhookWorld Address)

/-! ### Targets -/

/-- An address that may be contacted. -/
def WebhookWorld.Public (address : Address) : Prop :=
  w.isGlobal address = true ∧ w.isMulticast address = false ∧ w.isUnspecified address = false

/-- `_ensure_public_address` -/
def ensurePublicAddress (address : Address) : Except Raised Unit :=
  if !w.isGlobal address || w.isMulticast address || w.isUnspecified address then
    .error (unprocessable "Webhook target host is not allowed")
  else .ok ()

/-- The host that `_parse_webhook_target` looks at. -/
def ParsedUrl.host (parsed : ParsedUrl) : String := rstripDots (lower (strip (parsed.hostname.getD "")))

/-- A name that is not allowed. -/
def rejectedName (host : String) : Bool :=
  ["localhost", "metadata.google.internal"].contains host ||
    ".internal".toList.isSuffixOf host.toList || ".localhost".toList.isSuffixOf host.toList ||
    (!host.toList.contains '.' && !host.toList.contains ':')

/-- `_parse_webhook_target` -/
def parseWebhookTarget (targetUrl : String) : Except Raised ParsedUrl := do
  match w.urlparse targetUrl with
  | none => .error (unprocessable "Webhook target URL is invalid")
  | some parsed =>
    if lower parsed.scheme ∉ ["http", "https"] then
      .error (unprocessable "Webhook target scheme is not allowed")
    else if parsed.host = "" then .error (unprocessable "Webhook target host is required")
    else if (given parsed.username).isSome || (given parsed.password).isSome then
      .error (unprocessable "Webhook target credentials are not allowed")
    else if parsed.port = some 0 then .error (unprocessable "Webhook target port is invalid")
    else if rejectedName parsed.host then .error (unprocessable "Webhook target host is not allowed")
    else
      match w.ipAddress parsed.host with
      | none => .ok parsed
      | some ip => do
        ensurePublicAddress w ip
        .ok parsed

/-- `(parsed.hostname or "").rstrip(".")` -/
def ParsedUrl.name (parsed : ParsedUrl) : String := rstripDots (parsed.hostname.getD "")

/-- `443 if parsed.scheme.lower() == "https" else 80` -/
def ParsedUrl.defaultPort (parsed : ParsedUrl) : ℕ := if lower parsed.scheme = "https" then 443 else 80

/-- `text.split("%", 1)[0]` -/
def unscoped (text : String) : String := String.ofList (text.toList.takeWhile (· ≠ '%'))

/-- What `getaddrinfo` answers. -/
def addrinfos (parsed : ParsedUrl) : Option (List (AddressFamily × String)) :=
  (w.encodeIdna parsed.name).bind fun host ↦ w.getaddrinfo host (orNat (parsed.port.getD 0) parsed.defaultPort)

/-- The addresses of an answer, each once. `ip_address` raises where a text is none. -/
def collectAddresses [DecidableEq Address] :
    List (AddressFamily × String) → List Address → Except Raised (List Address)
  | [], addresses => .ok addresses
  | (family, text) :: infos, addresses =>
    if family = .other then collectAddresses infos addresses
    else
      match w.ipAddress (unscoped text) with
      | none => .error .valueError
      | some address =>
        collectAddresses infos (if address ∈ addresses then addresses else addresses ++ [address])

/-- `_resolve_public_addresses` -/
def resolvePublicAddresses [DecidableEq Address] (parsed : ParsedUrl) : Except Raised (List Address) :=
  match w.ipAddress parsed.name with
  | some literal => do
    ensurePublicAddress w literal
    .ok [literal]
  | none =>
    match addrinfos w parsed with
    | none => .error (unprocessable "Webhook target host could not be resolved")
    | some infos => do
      let addresses ← collectAddresses w infos []
      if addresses.isEmpty then .error (unprocessable "Webhook target host could not be resolved")
      else do
        addresses.forM (ensurePublicAddress w)
        .ok addresses

/-! ### Delivery -/

/-- `urlunparse`, of an authority and without a fragment. -/
def urlunparse (scheme netloc path params query : String) : String :=
  let url := if params = "" then path else path ++ ";" ++ params
  let url := if url = "" ∨ url.toList.head? = some '/' then url else "/" ++ url
  let url := scheme ++ "://" ++ netloc ++ url
  if query = "" then url else url ++ "?" ++ query

/-- The address in place of the host, and the port if there is one. -/
def ParsedUrl.netloc (parsed : ParsedUrl) (address : Address) : String :=
  let addressText := if w.version address = 6 then "[" ++ w.str address ++ "]" else w.str address
  match parsed.port with
  | some port => addressText ++ ":" ++ toString port
  | none => addressText

/-- The header that names a host. -/
def hostHeader (parsed : ParsedUrl) (hostname : String) : String :=
  let header := if hostname.toList.contains ':' then "[" ++ hostname ++ "]" else hostname
  match parsed.port with
  | some port => if port ≠ parsed.defaultPort then header ++ ":" ++ toString port else header
  | none => header

/-- `_pinned_target` -/
def pinnedTarget (parsed : ParsedUrl) (address : Address) : String × String :=
  (urlunparse (lower parsed.scheme) (parsed.netloc w address) (if parsed.path = "" then "/" else parsed.path)
    parsed.params parsed.query, hostHeader parsed parsed.name)

/-- `_MAX_WEBHOOK_RESPONSE_BYTES` -/
def maxWebhookResponseBytes : ℕ := 64 * 1024

/-- The loop over the chunks: what it has read, and whether it stopped before their end. -/
def readBounded : List UInt8 → List (List UInt8) → List UInt8 × Bool
  | content, [] => (content, false)
  | content, chunk :: chunks =>
    if maxWebhookResponseBytes ≤ content.length then (content, true)
    else
      let content := content ++ chunk.take (maxWebhookResponseBytes - content.length)
      if maxWebhookResponseBytes ≤ content.length then (content, true) else readBounded content chunks

/-- `_bounded_response_preview`, or the error that the body breaks off with. -/
def boundedResponsePreview (chunks : List (List UInt8)) (brokenBy : Option String) : Except String (Option String) :=
  match readBounded [] chunks, brokenBy with
  | (_, false), some message => .error message
  | (content, _), _ => .ok (if content = [] then none else some (slice 500 (w.decode content)))

/-- What an `httpx.HTTPError` leaves. -/
def failedDelivery (webhook : WebhookEndpoint) (now : DateTime) (message : String) (sent : List WebhookRequest) :
    Except Raised WebhookTestResponse × WebhookEndpoint × List WebhookRequest :=
  (.ok ⟨false, none, none, some message⟩, { webhook with lastTestedAt := some now, lastResponseStatus := none }, sent)

/-- The request that is sent. -/
def webhookRequest (webhook : WebhookEndpoint) (pinned : String × String) (parsed : ParsedUrl) : WebhookRequest where
  method := "POST"
  url := pinned.1
  content := w.rawBody
  headers :=
    [("Content-Type", "application/json"), ("Host", pinned.2), ("X-Generic-App-Event", "platform.test"),
      ("X-Generic-App-Signature", w.hmac webhook.secret w.rawBody)]
  sniHostname := parsed.name

/-- `test_webhook_for_user`, of a webhook of the user: what is returned, the row, and the requests that are sent. The
module is enabled, or the call raises. -/
def testWebhook [DecidableEq Address] (enabled : Except Raised Unit) (webhook : WebhookEndpoint) (now : DateTime) :
    Except Raised WebhookTestResponse × WebhookEndpoint × List WebhookRequest :=
  match (do
    enabled
    let parsed ← parseWebhookTarget w webhook.targetUrl
    let addresses ← resolvePublicAddresses w parsed
    .ok (parsed, addresses)) with
  | .error raised => (.error raised, webhook, [])
  -- there is an address where none is refused
  | .ok (_, []) => (.error .other, webhook, [])
  | .ok (parsed, address :: _) =>
    let request := webhookRequest w webhook (pinnedTarget w parsed address) parsed
    match w.post request with
    | .invalidUrl => (.error .other, webhook, [])
    | .httpError message => failedDelivery webhook now message [request]
    | .answered statusCode chunks brokenBy =>
      match boundedResponsePreview w chunks brokenBy with
      | .error message => failedDelivery webhook now message [request]
      | .ok preview =>
        let isSuccess := 200 ≤ statusCode ∧ statusCode ≤ 299
        (.ok ⟨isSuccess, some statusCode, preview, none⟩,
          { webhook with lastTestedAt := some now, lastResponseStatus := some statusCode }, [request])

end Delivery

/-! ### What is sent -/

section Sent

variable {Address : Type} {w : WebhookWorld Address} {parsed : ParsedUrl}

/-- The host is the literal of this address, or is resolved to it. -/
def Resolves (w : WebhookWorld Address) (parsed : ParsedUrl) (address : Address) : Prop :=
  match w.ipAddress parsed.name with
  | some literal => address = literal
  | none => ∃ infos, addrinfos w parsed = some infos ∧
    ∃ info ∈ infos, info.1 ≠ .other ∧ w.ipAddress (unscoped info.2) = some address

/-- The name or literal is rejected, or one of the addresses is not public. -/
def RefusedHost (w : WebhookWorld Address) (parsed : ParsedUrl) : Prop :=
  rejectedName parsed.host = true ∨ (∃ ip, w.ipAddress parsed.host = some ip ∧ ¬w.Public ip) ∨
    ∃ address, Resolves w parsed address ∧ ¬w.Public address

/-- The text of an address has digits and separators, and else what stood behind a `%`. -/
def AddressTexts (w : WebhookWorld Address) : Prop :=
  ∀ text address, w.ipAddress text = some address → ∀ c ∈ (w.str address).toList,
    c ∈ "0123456789abcdef:.".toList ∨ ('%' ∈ text.toList ∧ c ∈ text.toList)

/-- What of a URL says where it leads: between the scheme and the first of `/`, `?` and `#`. -/
def urlAuthority (url : String) : List Char :=
  ((url.toList.dropWhile (· ≠ ':')).drop 3).takeWhile (· ∉ ['/', '?', '#'])

/-- **A pinned request** names the host, and leads to an address of it that is public. -/
structure Pinned (w : WebhookWorld Address) (parsed : ParsedUrl) (request : WebhookRequest) : Prop where
  method : request.method = "POST"
  address : ∃ address, Resolves w parsed address ∧ w.Public address ∧
    request.url = urlunparse (lower parsed.scheme) (parsed.netloc w address)
      (if parsed.path = "" then "/" else parsed.path) parsed.params parsed.query ∧
    urlAuthority request.url = (parsed.netloc w address).toList
  host : request.headers.lookup "Host" = some (hostHeader parsed parsed.name)
  sni : request.sniHostname = parsed.name

theorem ensurePublicAddress_ok_iff {address : Address} : ensurePublicAddress w address = .ok () ↔ w.Public address := by
  rw [ensurePublicAddress, WebhookWorld.Public]
  cases w.isGlobal address <;> cases w.isMulticast address <;> cases w.isUnspecified address <;> simp

theorem forM_ensure_ok {addresses : List Address} (h : addresses.forM (ensurePublicAddress w) = .ok ()) :
    ∀ address ∈ addresses, w.Public address := by
  induction addresses with
  | nil => exact fun _ h ↦ absurd h List.not_mem_nil
  | cons first others ih =>
    change (ensurePublicAddress w first >>= fun _ ↦ others.forM (ensurePublicAddress w)) = .ok () at h
    rcases hfirst : ensurePublicAddress w first with e | ⟨⟩
    · rw [hfirst] at h
      exact nomatch h
    · rw [hfirst] at h
      exact List.forall_mem_cons.2 ⟨ensurePublicAddress_ok_iff.1 hfirst, ih h⟩

theorem parse_ok {targetUrl : String} (h : parseWebhookTarget w targetUrl = .ok parsed) :
    w.urlparse targetUrl = some parsed ∧ lower parsed.scheme ∈ ["http", "https"] ∧ rejectedName parsed.host = false ∧
      ∀ ip, w.ipAddress parsed.host = some ip → w.Public ip := by
  unfold parseWebhookTarget at h
  split at h
  · exact nomatch h
  next parsed' hparsed =>
  split_ifs at h with hscheme _ _ _ hname
  split at h
  · next hnone =>
    obtain rfl := Except.ok.inj h
    exact ⟨hparsed, hscheme, Bool.eq_false_iff.2 hname, fun ip hip ↦ nomatch hnone.symm.trans hip⟩
  · next ip hip =>
    rcases hpublic : ensurePublicAddress w ip with e | ⟨⟩
    · rw [hpublic] at h
      exact nomatch h
    · rw [hpublic] at h
      obtain rfl := Except.ok.inj h
      refine ⟨hparsed, hscheme, Bool.eq_false_iff.2 hname, fun ip' hip' ↦ ?_⟩
      exact Option.some.inj (hip.symm.trans hip') ▸ ensurePublicAddress_ok_iff.1 hpublic

/-- **The authority of the URL** is what was put there. -/
theorem urlAuthority_urlunparse {scheme netloc path : String} (params query : String) (hscheme : ':' ∉ scheme.toList)
    (hnetloc : ∀ c ∈ netloc.toList, c ∉ ['/', '?', '#']) (hpath : path ≠ "") :
    urlAuthority (urlunparse scheme netloc path params query) = netloc.toList := by
  obtain ⟨rest, hurl⟩ : ∃ rest, (urlunparse scheme netloc path params query).toList =
      scheme.toList ++ ':' :: '/' :: '/' :: (netloc.toList ++ '/' :: rest) := by
    unfold urlunparse
    dsimp only
    set url := if params = "" then path else path ++ ";" ++ params with hurl
    have hne : url ≠ "" := by
      rw [hurl]
      split
      · exact hpath
      · simp
    obtain ⟨rest, hrest⟩ : ∃ rest,
        (if url = "" ∨ url.toList.head? = some '/' then url else "/" ++ url).toList = '/' :: rest := by
      split
      · next h => exact (List.head?_eq_some_iff.1 (h.resolve_left hne)).imp fun _ ↦ id
      · exact ⟨url.toList, by simp⟩
    split
    · exact ⟨rest, by simp [hrest]⟩
    · exact ⟨rest ++ '?' :: query.toList, by simp [hrest]⟩
  rw [urlAuthority, hurl]
  have hdrop : (scheme.toList ++ ':' :: '/' :: '/' :: (netloc.toList ++ '/' :: rest)).dropWhile (· ≠ ':') =
      ':' :: '/' :: '/' :: (netloc.toList ++ '/' :: rest) := by
    rw [List.dropWhile_append_of_pos fun c hc ↦ decide_eq_true (ne_of_mem_of_not_mem hc hscheme)]
    exact List.dropWhile_cons_of_neg (by simp)
  rw [hdrop]
  show (netloc.toList ++ '/' :: rest).takeWhile _ = _
  rw [List.takeWhile_append_of_pos fun c hc ↦ by simpa using hnetloc c hc, List.takeWhile_cons_of_neg (by simp),
    List.append_nil]

theorem mem_rstripDots {t : String} {c : Char} (h : c ∈ (rstripDots t).toList) : c ∈ t.toList := by
  rw [rstripDots, String.toList_ofList, List.mem_reverse] at h
  exact List.mem_reverse.1 ((List.dropWhile_sublist _).subset h)

/-- An address that the host is resolved to is written plainly. -/
theorem str_plain (hstr : AddressTexts w) {address : Address} (h : Resolves w parsed address) :
    ∀ c ∈ (w.str address).toList, c ∉ ['/', '?', '#'] := by
  obtain ⟨text, htext, hname⟩ : ∃ text, w.ipAddress text = some address ∧ ('%' ∈ text.toList → text = parsed.name) := by
    unfold Resolves at h
    split at h
    · next literal hliteral => exact ⟨parsed.name, h ▸ hliteral, fun _ ↦ rfl⟩
    · obtain ⟨_, -, info, -, -, hinfo⟩ := h
      refine ⟨_, hinfo, fun hzone ↦ ?_⟩
      rw [unscoped, String.toList_ofList] at hzone
      exact absurd (List.mem_takeWhile_imp hzone) (by simp)
  intro c hc
  rcases hstr text address htext c hc with hplain | ⟨hzone, hc⟩
  · intro hbad
    have hnone : ∀ c ∈ ['/', '?', '#'], c ∉ "0123456789abcdef:.".toList := by simp
    exact hnone c hbad hplain
  · rw [hname hzone] at hc
    rcases hhost : parsed.hostname with - | host
    · have hmem := mem_rstripDots hc
      rw [hhost] at hmem
      exact absurd hmem (by simp)
    · have hmem := mem_rstripDots hc
      rw [hhost] at hmem
      exact parsed.hostname_plain host hhost c hmem

theorem netloc_plain (hstr : AddressTexts w) {address : Address} (h : Resolves w parsed address) :
    ∀ c ∈ (parsed.netloc w address).toList, c ∉ ['/', '?', '#'] := by
  have haddress : ∀ c ∈ (if w.version address = 6 then "[" ++ w.str address ++ "]" else w.str address).toList,
      c ∉ ['/', '?', '#'] := by
    split
    · intro c hc
      rw [String.toList_append, String.toList_append, List.mem_append, List.mem_append] at hc
      rcases hc with (hc | hc) | hc
      · obtain rfl : c = '[' := List.mem_singleton.1 hc
        decide
      · exact str_plain hstr h c hc
      · obtain rfl : c = ']' := List.mem_singleton.1 hc
        decide
    · exact str_plain hstr h
  unfold ParsedUrl.netloc
  dsimp only
  split
  · next port _ =>
    intro c hc hbad
    rw [String.toList_append, String.toList_append, List.mem_append, List.mem_append] at hc
    rcases hc with (hc | hc) | hc
    · exact haddress c hc hbad
    · obtain rfl : c = ':' := List.mem_singleton.1 hc
      exact absurd hbad (by decide)
    · have hdigit : ∀ c ∈ ['/', '?', '#'], c.isDigit = false ∧ c ≠ '-' := by simp
      exact notMem_toString (hdigit c hbad) port hc
  · exact haddress

/-- What is read is the beginning of the body. -/
theorem readBounded_prefix (content : List UInt8) (chunks : List (List UInt8))
    (h : content.length ≤ maxWebhookResponseBytes) :
    (readBounded content chunks).1 = (content ++ chunks.flatten).take maxWebhookResponseBytes := by
  induction chunks generalizing content with
  | nil => rw [readBounded, List.flatten_nil, List.append_nil, List.take_of_length_le h]
  | cons chunk chunks ih =>
    have hnext : (content ++ chunk.take (maxWebhookResponseBytes - content.length)).length ≤
        maxWebhookResponseBytes := by
      rw [List.length_append, List.length_take]
      omega
    rw [readBounded, List.flatten_cons, ← List.append_assoc]
    split
    · next hfull =>
      rw [List.append_assoc, List.take_append_of_le_length hfull, List.take_of_length_le h]
    · dsimp only
      have htake : (content ++ chunk).take maxWebhookResponseBytes =
          content ++ chunk.take (maxWebhookResponseBytes - content.length) := by
        rw [List.take_append, List.take_of_length_le h]
      split
      · next hfull =>
        rw [← htake, List.length_take, Nat.le_min] at hfull
        rw [← htake, List.take_append_of_le_length hfull.2]
      · next hopen =>
        rw [← htake, List.length_take, Nat.le_min, not_and] at hopen
        rw [ih _ hnext, ← htake, List.take_of_length_le (not_le.1 (hopen le_rfl)).le]

theorem preview_of_bounded {chunks : List (List UInt8)} {brokenBy : Option String} {preview : String}
    (h : boundedResponsePreview w chunks brokenBy = .ok (some preview)) :
    preview = slice 500 (w.decode (chunks.flatten.take maxWebhookResponseBytes)) := by
  have hread := readBounded_prefix [] chunks (Nat.zero_le _)
  rw [List.nil_append] at hread
  rcases hbounded : readBounded [] chunks with ⟨content, stopped⟩
  rw [hbounded] at hread
  have hok : (if content = [] then none else some (slice 500 (w.decode content))) = some preview := by
    unfold boundedResponsePreview at h
    rw [hbounded] at h
    cases stopped <;> cases brokenBy <;> first | exact Except.ok.inj h | exact nomatch h
  rw [← hread]
  split at hok
  · exact nomatch hok
  · exact (Option.some.inj hok).symm

variable [DecidableEq Address]

theorem mem_collectAddresses {infos : List (AddressFamily × String)} {found addresses : List Address}
    (h : collectAddresses w infos found = .ok addresses) (address : Address) :
    address ∈ addresses ↔
      address ∈ found ∨ ∃ info ∈ infos, info.1 ≠ .other ∧ w.ipAddress (unscoped info.2) = some address := by
  induction infos generalizing found with
  | nil =>
    obtain rfl := Except.ok.inj h
    simp
  | cons info infos ih =>
    obtain ⟨family, text⟩ := info
    rw [collectAddresses] at h
    split at h
    · next hother => rw [ih h, List.exists_mem_cons_iff, hother]; simp
    · next hfamily =>
      split at h
      · exact nomatch h
      · next first hfirst =>
        rw [ih h, List.exists_mem_cons_iff, hfirst, Option.some_inj, ← or_assoc]
        refine or_congr_left ?_
        split
        · next hin => exact ⟨.inl, fun h ↦ h.elim id fun h ↦ h.2 ▸ hin⟩
        · rw [List.mem_append, List.mem_singleton, eq_comm (a := address)]
          exact or_congr_right (and_iff_right hfamily).symm

/-- **All addresses are checked**, and there is one. -/
theorem resolve_ok {addresses : List Address} (h : resolvePublicAddresses w parsed = .ok addresses) :
    addresses ≠ [] ∧ (∀ address, address ∈ addresses ↔ Resolves w parsed address) ∧
      ∀ address ∈ addresses, w.Public address := by
  unfold resolvePublicAddresses at h
  simp only [Resolves]
  split at h
  · next literal hliteral =>
    rcases hpublic : ensurePublicAddress w literal with e | ⟨⟩
    · rw [hpublic] at h
      exact nomatch h
    · rw [hpublic] at h
      obtain rfl := Except.ok.inj h
      simp [ensurePublicAddress_ok_iff.1 hpublic]
  · next hnone =>
    split at h
    · exact nomatch h
    next infos hinfos =>
    rcases hcollect : collectAddresses w infos [] with e | found
    · rw [hcollect] at h
      exact nomatch h
    rw [hcollect] at h
    dsimp only [bind, Except.bind] at h
    split at h
    · exact nomatch h
    next hsome =>
    rcases hall : found.forM (ensurePublicAddress w) with e | ⟨⟩
    · rw [hall] at h
      exact nomatch h
    rw [hall] at h
    obtain rfl := Except.ok.inj h
    refine ⟨fun hempty ↦ hsome (hempty ▸ rfl), fun address ↦ ?_, forM_ensure_ok hall⟩
    rw [mem_collectAddresses hcollect]
    simp [hinfos]

/-- **The two ways that a call goes**: it raises, and nothing has happened; or the target is good, and the request is
sent to the first of its addresses. -/
theorem testWebhook_cases (enabled : Except Raised Unit) (webhook : WebhookEndpoint) (now : DateTime) :
    (∃ raised, testWebhook w enabled webhook now = (.error raised, webhook, [])) ∨
      ∃ parsed address others, parseWebhookTarget w webhook.targetUrl = .ok parsed ∧
        resolvePublicAddresses w parsed = .ok (address :: others) ∧
        (testWebhook w enabled webhook now).2.2 =
          [webhookRequest w webhook (pinnedTarget w parsed address) parsed] ∧
        ∀ response preview, (testWebhook w enabled webhook now).1 = .ok response →
          response.responsePreview = some preview → ∃ statusCode chunks brokenBy,
            w.post (webhookRequest w webhook (pinnedTarget w parsed address) parsed) =
              .answered statusCode chunks brokenBy ∧
            preview = slice 500 (w.decode (chunks.flatten.take maxWebhookResponseBytes)) := by
  unfold testWebhook
  rcases enabled with raised | ⟨⟩
  · exact .inl ⟨raised, rfl⟩
  rcases hparse : parseWebhookTarget w webhook.targetUrl with raised | parsed
  · exact .inl ⟨raised, rfl⟩
  rcases hresolve : resolvePublicAddresses w parsed with raised | addresses
  · exact .inl ⟨raised, by simp only [bind, Except.bind, hresolve]⟩
  rcases addresses with - | ⟨address, others⟩
  · exact absurd rfl (resolve_ok hresolve).1
  simp only [bind, Except.bind, hresolve]
  rcases hpost : w.post (webhookRequest w webhook (pinnedTarget w parsed address) parsed) with
    - | message | ⟨statusCode, chunks, brokenBy⟩
  · exact .inl ⟨.other, rfl⟩
  · refine .inr ⟨parsed, address, others, rfl, hresolve, rfl, fun response preview hok hpreview ↦ ?_⟩
    obtain rfl := Except.ok.inj hok
    exact nomatch hpreview
  · refine .inr ⟨parsed, address, others, rfl, hresolve, ?_⟩
    dsimp only
    rcases hbounded : boundedResponsePreview w chunks brokenBy with message | preview
    · refine ⟨rfl, fun response preview hok hpreview ↦ ?_⟩
      obtain rfl := Except.ok.inj hok
      exact nomatch hpreview
    · refine ⟨rfl, fun response preview' hok hpreview ↦ ?_⟩
      obtain rfl := Except.ok.inj hok
      obtain rfl : preview = some preview' := hpreview
      exact ⟨statusCode, chunks, brokenBy, hpost, preview_of_bounded hbounded⟩

/-- **A webhook is delivered where it should be.** No more than one request is sent, whatever is answered, and it is
pinned. None is sent and the row stays as it was where the host is refused. The preview is made of the first 64 KiB of
the body. -/
theorem test_webhook_pinned (hstr : AddressTexts w) (enabled : Except Raised Unit) (webhook : WebhookEndpoint)
    (now : DateTime) :
    let r := testWebhook w enabled webhook now
    r.2.2.length ≤ 1 ∧
      (∀ request ∈ r.2.2, ∃ parsed, w.urlparse webhook.targetUrl = some parsed ∧ ¬RefusedHost w parsed ∧
        Pinned w parsed request) ∧
      (∀ parsed, w.urlparse webhook.targetUrl = some parsed → RefusedHost w parsed → r.2.2 = [] ∧ r.2.1 = webhook) ∧
      ∀ response preview, r.1 = .ok response → response.responsePreview = some preview →
        ∃ request statusCode chunks brokenBy, r.2.2 = [request] ∧
          w.post request = .answered statusCode chunks brokenBy ∧
            preview = slice 500 (w.decode (chunks.flatten.take maxWebhookResponseBytes)) := by
  intro r
  rcases testWebhook_cases (w := w) enabled webhook now with
    ⟨raised, hraised⟩ | ⟨parsed, address, others, hparse, hresolve, hsent, hpreview⟩
  · have hr : r = (.error raised, webhook, []) := hraised
    rw [hr]
    exact ⟨Nat.zero_le 1, fun _ h ↦ absurd h List.not_mem_nil, fun _ _ _ ↦ ⟨rfl, rfl⟩, fun _ _ h ↦ nomatch h⟩
  obtain ⟨hparsed, hscheme, hname, hliteral⟩ := parse_ok hparse
  obtain ⟨-, hresolves, hpublic⟩ := resolve_ok hresolve
  have hgood : ¬RefusedHost w parsed := by
    rintro (hbad | ⟨ip, hip, hbad⟩ | ⟨other, hother, hbad⟩)
    · exact Bool.noConfusion (hname.symm.trans hbad)
    · exact hbad (hliteral ip hip)
    · exact hbad (hpublic other ((hresolves other).2 hother))
  have hsent : r.2.2 = [webhookRequest w webhook (pinnedTarget w parsed address) parsed] := hsent
  have haddress := (hresolves address).1 List.mem_cons_self
  have hplain : ':' ∉ (lower parsed.scheme).toList := by
    rcases List.mem_pair.1 hscheme with h | h <;> rw [h] <;> decide
  refine ⟨by rw [hsent]; rfl, fun request hrequest ↦ ⟨parsed, hparsed, hgood, ?_⟩, fun other hother hbad ↦ ?_,
    fun response preview hok hshown ↦ ?_⟩
  · obtain rfl := List.mem_singleton.1 (hsent ▸ hrequest)
    refine ⟨rfl, ⟨address, haddress, hpublic address List.mem_cons_self, rfl, ?_⟩, rfl, rfl⟩
    refine urlAuthority_urlunparse _ _ hplain (netloc_plain hstr haddress) ?_
    split
    · decide
    · next hpath => exact hpath
  · obtain rfl := Option.some.inj (hparsed.symm.trans hother)
    exact absurd hbad hgood
  · obtain ⟨statusCode, chunks, brokenBy, hpost, heq⟩ := hpreview response preview hok hshown
    exact ⟨_, statusCode, chunks, brokenBy, hsent, hpost, heq⟩

/-- One name, and one address of it. -/
def hooksWorld : WebhookWorld String where
  urlparse url := if url = "https://hook.example./ci" then
      some ⟨"https", some "hook.example.", none, "/ci", "", "", none, none, by simp⟩ else none
  ipAddress text := if text = "1.1.1.1" then some text else none
  isGlobal _ := true
  isMulticast _ := false
  isUnspecified _ := false
  version _ := 4
  str := id
  encodeIdna := some
  getaddrinfo host port := if host = "hook.example" ∧ port = 443 then some [(.inet, "1.1.1.1")] else none
  hmac _ _ := ""
  rawBody := []
  post _ := .answered 204 [] none
  decode _ := ""

theorem test_webhook_pinned_example :
    ∃ request, (testWebhook hooksWorld (.ok ()) ⟨"https://hook.example./ci", "s", none, none⟩ 7).2.2 = [request] ∧
      request.url = "https://1.1.1.1/ci" ∧ request.sniHostname = "hook.example" ∧
      ∃ parsed, ¬RefusedHost hooksWorld parsed ∧ Pinned hooksWorld parsed request := by
  have hstr : AddressTexts hooksWorld := by
    intro text address h c hc
    obtain ⟨rfl, h⟩ := Option.ite_none_right_eq_some.1 h
    obtain rfl := Option.some.inj h
    have hplain : ∀ c ∈ "1.1.1.1".toList, c ∈ "0123456789abcdef:.".toList := by simp
    exact .inl (hplain c hc)
  obtain ⟨-, hsent, -⟩ := test_webhook_pinned hstr (.ok ()) ⟨"https://hook.example./ci", "s", none, none⟩ 7
  obtain ⟨parsed, -, hgood, hpinned⟩ := hsent _ (List.mem_singleton.2 rfl)
  exact ⟨_, rfl, rfl, rfl, parsed, hgood, hpinned⟩

end Sent

end GenericApp
