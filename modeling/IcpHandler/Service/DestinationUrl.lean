import IcpHandler.Model.IpAddr
import IcpHandler.Model.Text

/-
  Where webhooks may be sent: the checks of a destination URL.
  URLs are parsed by the package `url`.

  Main declarations:
    * `Url`, `UrlPackage`, `UrlPackage.Behaves`
    * `isForbiddenIp`, `isForbiddenHost`
    * `validateDestinationUrl`
-/

------------------------------------------------------------
-- URLs
------------------------------------------------------------

namespace IcpHandler

namespace Service

open Model

/- `url::Host` -/
inductive UrlHost where
  | domain (name : String)
  | ipv4 (ip : Ipv4Addr)
  | ipv6 (ip : Ipv6Addr)

/- A parsed URL, by what is checked of it. -/
structure Url where
  scheme : String
  username : String
  password : Option String
  host : Option UrlHost

/- `Url::parse` and `Url::host_str` -/
structure UrlPackage where
  parse : String → Option Url
  hostStr : Url → Option String

/-
  A literal IPv4 address is written in its four parts, and an
  IPv6 address in brackets.
-/
structure UrlPackage.Behaves (package : UrlPackage) : Prop where
  ipv4 :
    ∀ url ip, url.host = some (.ipv4 ip) →
      package.hostStr url = some ip.text
  ipv6 :
    ∀ url ip, url.host = some (.ipv6 ip) →
      ∃ text, package.hostStr url = some ("[" ++ text ++ "]")

end Service

end IcpHandler

------------------------------------------------------------
-- Forbidden Destinations
------------------------------------------------------------

namespace IcpHandler

namespace Service

open Model

/- `is_forbidden_ip` -/
def isForbiddenIp : IpAddr → Bool
  | .v4 ip =>
      ip.isPrivate || ip.isLoopback || ip.isLinkLocal ||
        ip.isUnspecified || ip.isBroadcast || ip.isMulticast
  | .v6 ip =>
      ip.isLoopback || ip.isUnspecified || ip.isMulticast ||
        ip.first &&& 0xfe00 == 0xfc00 ||
        ip.first &&& 0xffc0 == 0xfe80

/- `host.trim_end_matches('.').to_ascii_lowercase()` -/
def normalizedHost (host : String) : List Char :=
  (host.toList.reverse.dropWhile (· == '.')).reverse.map
    Text.toAsciiLower

/- `is_forbidden_host` -/
def isForbiddenHost (host : String) : Bool :=
  let normalized := normalizedHost host
  if normalized ∈
        ["localhost".toList, "ip6-localhost".toList,
          "ip6-loopback".toList] ∨
      ".localhost".toList.isSuffixOf normalized ∨
      ".local".toList.isSuffixOf normalized then
    true
  else (parseIpAddr host).any isForbiddenIp

/- `validate_destination_url` -/
def validateDestinationUrl
    (package : UrlPackage)
    (url : String)
    (allowInsecure : Bool) : Except String Unit := do
  let some parsed := package.parse url
    | throw "url must be a valid absolute http(s) URL"
  if parsed.scheme != "http" && parsed.scheme != "https" then
    throw "url must use http:// or https://"
  let some host := package.hostStr parsed
    | throw "url must include a host"
  if parsed.username != "" || parsed.password.isSome then
    throw "url must not include credentials"
  if !allowInsecure && parsed.scheme != "https" then
    throw
      "url must use https:// when insecure URLs are disabled"
  if !allowInsecure && isForbiddenHost host then
    throw
      ("url host must not resolve to localhost or a private " ++
        "network")
  pure ()

end Service

end IcpHandler
