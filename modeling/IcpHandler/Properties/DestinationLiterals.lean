import IcpHandler.Service.DestinationUrl

/-
  Literal addresses in destination URLs. The host check reads
  the text of the host as an address, and no text in brackets
  is one: it catches internal IPv4 addresses, and lets every
  IPv6 address through.

  Main declarations:
    * `InternalLiteral`, `Rejects`
    * `isForbiddenHost_text`, `isForbiddenHost_bracket`
    * `internal_literals_rejected_iff`
-/

------------------------------------------------------------
-- Literal Hosts
------------------------------------------------------------

namespace IcpHandler

namespace Service

open Model

/- Loopback, private, link-local or unspecified. -/
def Internal4 (ip : Ipv4Addr) : Prop :=
  (ip.isLoopback || ip.isPrivate || ip.isLinkLocal ||
    ip.isUnspecified) = true

/- The same, or an internal IPv4 address that is mapped. -/
def Internal6 (ip : Ipv6Addr) : Prop :=
  ip.isLoopback = true ∨ ip.isUnspecified = true ∨
    -- unique local, and link-local
    ip.first &&& 0xfe00 = 0xfc00 ∨
    ip.first &&& 0xffc0 = 0xfe80 ∨
    ∃ mapped, ip = Ipv4Addr.toIpv6Mapped mapped ∧
      Internal4 mapped

def InternalLiteral : UrlHost → Prop
  | .domain _ => False
  | .ipv4 ip => Internal4 ip
  | .ipv6 ip => Internal6 ip

def UrlHost.isIpv4 : UrlHost → Bool
  | .ipv4 _ => true
  | _ => false

/- The URL is refused as a destination. -/
def Rejects
    (package : UrlPackage)
    (url : String) : Prop :=
  ∃ message,
    validateDestinationUrl package url false = .error message

/- Internal IPv4 addresses are caught in their written form. -/
theorem isForbiddenHost_text
    {ip : Ipv4Addr}
    (hInternal : Internal4 ip) :
    isForbiddenHost ip.text = true := by
  have hForbidden : isForbiddenIp (.v4 ip) = true := by
    unfold Internal4 at hInternal
    simp only [Bool.or_eq_true] at hInternal
    simp only [isForbiddenIp, Bool.or_eq_true]
    tauto
  unfold isForbiddenHost
  dsimp only
  split
  · rfl
  · rw [parseIpAddr_text]
    exact hForbidden

/- A host in brackets is checked as it is. -/
theorem normalizedHost_bracket (text : String) :
    normalizedHost ("[" ++ text ++ "]") =
      '[' :: (text.toList.map Text.toAsciiLower ++ [']']) := by
  have hList :
      ("[" ++ text ++ "]").toList =
        '[' :: (text.toList ++ [']']) := by
    simp [String.toList_append]
  unfold normalizedHost
  rw [hList]
  have hDrop :
      (('[' :: (text.toList ++ [']'])).reverse.dropWhile
        (· == '.')) = ('[' :: (text.toList ++ [']'])).reverse := by
    simp
  rw [hDrop, List.reverse_reverse, List.map_cons,
    List.map_append]
  rfl

/- A text that ends otherwise has not the suffix. -/
theorem not_suffix_of_last
    {last other : Char}
    (hNe : other ≠ last)
    (suffix text : List Char) :
    ¬ (suffix ++ [other]).isSuffixOf (text ++ [last]) =
      true := by
  rw [List.isSuffixOf_iff_suffix]
  rintro ⟨start, hSame⟩
  rw [← List.append_assoc] at hSame
  have hLast := congrArg List.getLast? hSame
  rw [List.getLast?_concat, List.getLast?_concat] at hLast
  exact hNe (Option.some.inj hLast)

/- No host in brackets is forbidden. -/
theorem isForbiddenHost_bracket (text : String) :
    isForbiddenHost ("[" ++ text ++ "]") = false := by
  have hParse :
      parseIpAddr ("[" ++ text ++ "]") = none := by
    have hList :
        "[" ++ text ++ "]" =
          String.ofList ('[' :: (text.toList ++ [']'])) := by
      apply String.toList_inj.mp
      simp [String.toList_append]
    rw [hList]
    exact parseIpAddr_bracket _
  unfold isForbiddenHost
  dsimp only
  rw [normalizedHost_bracket, hParse, if_neg ?_]
  · rfl
  · rintro (hName | hLocalhost | hLocal)
    · simp at hName
    · exact not_suffix_of_last (by decide) ".localhos".toList
        ('[' :: text.toList.map Text.toAsciiLower) hLocalhost
    · exact not_suffix_of_last (by decide) ".loca".toList
        ('[' :: text.toList.map Text.toAsciiLower) hLocal

/- No mapped address is forbidden. -/
theorem isForbiddenIp_mapped (ip : Ipv4Addr) :
    isForbiddenIp (.v6 ip.toIpv6Mapped) = false := by
  simp [isForbiddenIp, Ipv4Addr.toIpv6Mapped,
    Ipv6Addr.isLoopback, Ipv6Addr.isUnspecified,
    Ipv6Addr.isMulticast, Ipv6Addr.first]

end Service

end IcpHandler

------------------------------------------------------------
-- Rejected Destinations
------------------------------------------------------------

namespace IcpHandler

namespace Service

open Model

variable {package : UrlPackage} {url : String}
variable {parsed : Url} {host : UrlHost}

/- The URL has another scheme, or credentials. -/
def Unsuitable (parsed : Url) : Prop :=
  parsed.scheme ≠ "https" ∨ parsed.username ≠ "" ∨
    parsed.password.isSome = true

/- A parsed URL is refused for one of its parts. -/
theorem rejects_iff
    {text : String}
    (hParse : package.parse url = some parsed)
    (hText : package.hostStr parsed = some text) :
    Rejects package url ↔
      Unsuitable parsed ∨ isForbiddenHost text = true := by
  unfold Rejects validateDestinationUrl Unsuitable
  rw [hParse]
  dsimp only
  rw [hText]
  by_cases hSecure : parsed.scheme = "https"
  · by_cases hUser : parsed.username = ""
    · cases hPassword : parsed.password with
      | some password =>
          simp [hSecure, hUser, throw, throwThe,
            MonadExceptOf.throw, bind, Except.bind]
      | none =>
          cases hForbidden : isForbiddenHost text with
          | true =>
              simp [hSecure, hUser, hForbidden, throw,
                throwThe, MonadExceptOf.throw, bind,
                Except.bind]
          | false =>
              simp [hSecure, hUser, hForbidden, pure,
                Except.pure]
    · simp [hSecure, hUser, throw, throwThe,
        MonadExceptOf.throw, bind, Except.bind]
  · by_cases hPlain : parsed.scheme = "http"
    · by_cases hUser :
          parsed.username = "" ∧ parsed.password = none
      · simp [hPlain, hUser, throw, throwThe,
          MonadExceptOf.throw, bind, Except.bind]
      · have hCredentials :
            (parsed.username != "" ||
              parsed.password.isSome) = true := by
          cases hPassword : parsed.password with
          | some password => simp
          | none => simpa [hPassword] using hUser
        simp [hPlain, hCredentials, throw, throwThe,
          MonadExceptOf.throw, bind, Except.bind]
    · simp [hSecure, hPlain, throw, throwThe,
        MonadExceptOf.throw, bind, Except.bind]

/-
  An internal literal is refused just where it is an IPv4
  address, unless the URL is unsuitable anyhow; and a mapped
  address is judged as the address itself just where that is
  not forbidden.
-/
theorem internal_literals_rejected_iff
    (package : UrlPackage)
    (hBehaves : package.Behaves)
    (url : String)
    (parsed : Url)
    (host : UrlHost)
    (hParse : package.parse url = some parsed)
    (hHost : parsed.host = some host)
    (hInternal : InternalLiteral host)
    (ip : Ipv4Addr) :
    (Rejects package url ↔
      host.isIpv4 = true ∨ Unsuitable parsed) ∧
    (isForbiddenIp (.v6 ip.toIpv6Mapped) =
        isForbiddenIp (.v4 ip) ↔
      isForbiddenIp (.v4 ip) = false) := by
  constructor
  · cases host with
    | domain name => exact hInternal.elim
    | ipv4 address =>
        rw [rejects_iff hParse (hBehaves.ipv4 _ _ hHost),
          isForbiddenHost_text hInternal]
        exact or_comm
    | ipv6 address =>
        obtain ⟨text, hText⟩ := hBehaves.ipv6 _ _ hHost
        rw [rejects_iff hParse hText, isForbiddenHost_bracket]
        exact or_comm
  · rw [isForbiddenIp_mapped]
    exact eq_comm

/- A package that reads two URLs of the loopback. -/
private def loopbackUrls : UrlPackage where
  parse url :=
    if url = "https://[::1]/hook" then
      some
        { scheme := "https"
          username := ""
          password := none
          host :=
            some (.ipv6 ⟨[0, 0, 0, 0, 0, 0, 0, 1], rfl⟩) }
    else if url = "https://127.0.0.1/hook" then
      some
        { scheme := "https"
          username := ""
          password := none
          host := some (.ipv4 ⟨127, 0, 0, 1⟩) }
    else none
  hostStr url :=
    match url.host with
    | some (.domain name) => some name
    | some (.ipv4 ip) => some ip.text
    | some (.ipv6 _) => some ("[" ++ "::1" ++ "]")
    | none => none

private theorem loopbackUrls_behaves : loopbackUrls.Behaves where
  ipv4 url ip hHost := by
    dsimp only [loopbackUrls]
    rw [hHost]
  ipv6 url ip hHost := by
    dsimp only [loopbackUrls]
    rw [hHost]
    exact ⟨"::1", rfl⟩

/- The IPv6 loopback gets through, mapped or not. -/
theorem ipv6_loopback_accepted :
    (¬ ∀ package : UrlPackage, package.Behaves →
      ∀ url parsed host,
        package.parse url = some parsed →
        parsed.host = some host → InternalLiteral host →
          Rejects package url) ∧
    ¬ ∀ ip : Ipv4Addr,
      isForbiddenIp (.v6 ip.toIpv6Mapped) =
        isForbiddenIp (.v4 ip) := by
  constructor
  · intro hAll
    have hRejected :=
      hAll loopbackUrls loopbackUrls_behaves
        "https://[::1]/hook" _ _ rfl rfl (.inl rfl)
    rw [rejects_iff rfl rfl, isForbiddenHost_bracket]
      at hRejected
    revert hRejected
    unfold Unsuitable
    decide
  · intro hAll
    exact absurd (hAll ⟨127, 0, 0, 1⟩) (by decide)

theorem internal_literals_rejected_iff_sample :
    Rejects loopbackUrls "https://127.0.0.1/hook" :=
  (internal_literals_rejected_iff loopbackUrls
    loopbackUrls_behaves "https://127.0.0.1/hook" _ _ rfl rfl
    rfl ⟨10, 0, 0, 8⟩).1.mpr (.inl rfl)

end Service

end IcpHandler
