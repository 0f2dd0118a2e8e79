import Mathlib.Data.List.AList
import IcpHandler.Concurrency.Machine
import IcpHandler.Model.Chrono
import IcpHandler.Service.DestinationUrl
import IcpHandler.Service.Resolver

/-
  How a principal's keys are found. A `did:key` holds its key;
  the document of a `did:web` is fetched, once its address has
  been vetted, and its keys are cached for a while. Any number
  of resolutions share the cache.

  Main declarations:
    * `ResolveFailure`, `WebPackages`
    * `ResolveEff`, `ResolveWorld`, `resolveMachine`
    * `DidWebResolver.urlFor`, `ensurePublicUrl`
    * `DidWebResolver.resolve`
    * `CompositeResolver.resolve`
-/

------------------------------------------------------------
-- Effects
------------------------------------------------------------

namespace IcpHandler

namespace Service

open Model Concurrency

/- `ResolveError`, with the variants of a fetch. -/
inductive ResolveFailure where
  | parser (error : ResolveError)
  | network (url source : String)
  | blocked (url message : String)
  deriving DecidableEq

/- `UnsupportedMethod` -/
def ResolveFailure.isUnsupported : ResolveFailure → Bool
  | .parser (.unsupportedMethod _) => true
  | _ => false

/-
  The packages behind a resolution: those that decode keys,
  `reqwest::Url` and `Url::port_or_known_default`.
-/
structure WebPackages (Key : Type) extends KeyPackages Key where
  url : UrlPackage
  portOrKnownDefault : Url → Option UInt16

/- What comes of a GET for a document. -/
inductive FetchResult where
  | network (source : String)
  -- a status that is not a success
  | refused (status : String)
  | notJson (error : String)
  | document (doc : DidDocument)

variable (Key : Type)

/-
  The effects of a resolution. `cached` and `store` read the
  clock themselves.
-/
inductive ResolveEff where
  | cached (did : String)
  | lookupHost (host : String) (port : UInt16)
  | fetch (url : String)
  | store (did : String) (keys : List (ResolvedKeyEntry Key))

/-
  What each effect answers: with the keys, when they were
  asked for, and with a store, when it was made.
-/
abbrev ResolveEff.Res : ResolveEff Key → Type
  | .cached _ =>
      DateTime × Option (List (ResolvedKeyEntry Key))
  | .lookupHost _ _ => Except String (List IpAddr)
  | .fetch _ => FetchResult
  | .store _ _ => Option DateTime

structure CachedKeyset where
  fetchedAt : DateTime
  keys : List (ResolvedKeyEntry Key)

/- The keysets of the cache. -/
structure ResolveWorld where
  cache : AList fun _ : String => CachedKeyset Key := ∅

/- What the outside decides about a step. -/
structure ResolveChoice where
  clock : DateTime := 0
  -- the lock of the cache has been poisoned
  poisoned : Bool := false
  addresses : Except String (List IpAddr) := .ok []
  response : FetchResult := .network "offline"

variable {Key : Type}

/- `chrono::Duration::from_std`, of nanoseconds. -/
def durationFromStd (nanos : Nat) : Option Duration :=
  if nanos ≤ 9223372036854775807 * 1000000 then some nanos
  else none

/- `cached`: an entry counts while it is not too old. -/
def cachedKeys
    (cacheTtl : Nat)
    (world : ResolveWorld Key)
    (did : String)
    (now : DateTime) : Option (List (ResolvedKeyEntry Key)) :=
  if cacheTtl = 0 then none
  else do
    let entry ← world.cache.lookup did
    let ttl ← durationFromStd cacheTtl
    if now - entry.fetchedAt ≤ ttl then some entry.keys
    else none

/- The meaning of each effect. -/
def execResolve
    (cacheTtl : Nat)
    (c : ResolveChoice)
    (w : ResolveWorld Key) :
    (effect : ResolveEff Key) →
      Option (effect.Res × ResolveWorld Key)
  | .cached did =>
      some
        ((c.clock,
          if c.poisoned then none
          else cachedKeys cacheTtl w did c.clock), w)
  | .lookupHost _ _ => some (c.addresses, w)
  | .fetch _ => some (c.response, w)
  | .store did keys =>
      if cacheTtl = 0 ∨ c.poisoned = true then some (none, w)
      else
        some (some c.clock,
          { cache := w.cache.insert did ⟨c.clock, keys⟩ })

/- The machine of resolutions. -/
def resolveMachine (cacheTtl : Nat) :
    Machine (ResolveEff.Res Key) (ResolveWorld Key)
      ResolveChoice :=
  ⟨fun _ => execResolve cacheTtl⟩

end Service

end IcpHandler

------------------------------------------------------------
-- Resolution
------------------------------------------------------------

namespace IcpHandler

namespace Service

open Model Concurrency

variable {Key : Type}

/- What a resolution returns. -/
abbrev Resolved (Key : Type) :=
  Except ResolveFailure (List (ResolvedKeyEntry Key))

/- `host.replace("%3A", ":")`, on characters -/
def decodePort : List Char → List Char
  | '%' :: '3' :: 'A' :: rest => ':' :: decodePort rest
  | c :: rest => c :: decodePort rest
  | [] => []

structure DidWebResolver where
  scheme : String := "https"
  allowInsecure : Bool := false

namespace DidWebResolver

variable (resolver : DidWebResolver)

/- `url_for` -/
def urlFor (did : String) : Except ResolveError String :=
  match Text.stripPrefix "did:web:" did with
  | none => .error (.unsupportedMethod did)
  | some body =>
      if body.isEmpty then
        .error (.malformedDid "did:web: empty body")
      else
        match Text.splitOn ':' body with
        | [] => .error (.malformedDid "did:web: empty body")
        | host :: path =>
            let hostDecoded :=
              String.ofList (decodePort host.toList)
            let pathPart :=
              if path.isEmpty then "/.well-known/did.json"
              else "/" ++ "/".intercalate path ++ "/did.json"
            .ok (resolver.scheme ++ "://" ++ hostDecoded ++
              pathPart)

end DidWebResolver

variable (packages : WebPackages Key)

/- The addresses of a name, or why it must not be fetched. -/
def checkAddresses
    (addresses : Except String (List IpAddr)) :
    Except String Unit :=
  match addresses with
  | .error e => .error ("dns resolution failed: " ++ e)
  | .ok addrs =>
      if addrs.any isForbiddenIp then
        .error
          ("url host must not resolve to localhost or a " ++
            "private network")
      else if addrs.isEmpty then
        .error "url host did not resolve to any address"
      else .ok ()

/- `ensure_public_url` -/
def ensurePublicUrl
    (url : String) :
    Prog (ResolveEff.Res Key) (Except String Unit) :=
  match packages.url.parse url with
  | none => pure (.error "url must be a valid absolute URL")
  | some parsed =>
      match packages.url.hostStr parsed with
      | none => pure (.error "url must include a host")
      | some host =>
          if isForbiddenHost host then
            pure (.error
              ("url host must not resolve to localhost or a " ++
                "private network"))
          else if (parseIpAddr host).isSome then pure (.ok ())
          else
            match packages.portOrKnownDefault parsed with
            | none =>
                pure
                  (.error "url must include a resolvable port")
            | some port => do
                let addresses ←
                  Prog.perform (.lookupHost host port)
                pure (checkAddresses addresses)

/- The keys of a response, which has to advertise some. -/
def keysOfResponse
    (did url : String) : FetchResult → Resolved Key
  | .network source => .error (.network url source)
  | .refused status =>
      .error (.parser (.didDocument url ("status " ++ status)))
  | .notJson e =>
      .error (.parser (.didDocument url ("json: " ++ e)))
  | .document doc =>
      match parseVerificationMethods packages.toKeyPackages doc
          did url with
      | .error e => .error (.parser e)
      | .ok keys =>
          if keys.isEmpty then
            .error (.parser (.didDocument url
              ("DID document advertises no Ed25519 " ++
                "verification methods")))
          else .ok keys

/- The fetch, and the cache of what it has brought. -/
def fetchKeys
    (did url : String) :
    Prog (ResolveEff.Res Key) (Resolved Key) := do
  let response ← Prog.perform (.fetch url)
  match keysOfResponse packages did url response with
  | .error e => pure (.error e)
  | .ok keys => do
      let _ ← Prog.perform (.store did keys)
      pure (.ok keys)

namespace DidWebResolver

variable (resolver : DidWebResolver)

/- What the cache has on a DID. -/
def readCache
    (did : String) :
    Prog (ResolveEff.Res Key)
      (DateTime × Option (List (ResolvedKeyEntry Key))) :=
  .step (.cached did) .ret

/- The guard of `resolve`, unless the operator has lifted it. -/
def vetUrl
    (url : String) :
    Prog (ResolveEff.Res Key) (Except String Unit) :=
  if resolver.allowInsecure then pure (.ok ())
  else ensurePublicUrl packages url

/- `DidWebResolver::resolve` -/
def resolve
    (did : String) :
    Prog (ResolveEff.Res Key) (Resolved Key) := do
  let found ← readCache did
  match found.2 with
  | some keys => pure (.ok keys)
  | none =>
      match resolver.urlFor did with
      | .error e => pure (.error (.parser e))
      | .ok url => do
          match ← resolver.vetUrl packages url with
          | .error message =>
              pure (.error (.blocked url message))
          | .ok () => fetchKeys packages did url

end DidWebResolver

namespace CompositeResolver

/-
  `CompositeResolver::resolve`: the next resolver is tried
  where one does not know the method.
-/
def resolveWith
    (did : String) :
    List
        (String → Prog (ResolveEff.Res Key) (Resolved Key)) →
      Option ResolveFailure →
        Prog (ResolveEff.Res Key) (Resolved Key)
  | [], last =>
      pure (.error
        (last.getD (.parser (.unsupportedMethod did))))
  | resolver :: rest, _ => do
      match ← resolver did with
      | .ok keys => pure (.ok keys)
      | .error e =>
          if e.isUnsupported then
            resolveWith did rest (some e)
          else pure (.error e)

/- `DidKeyResolver`, which needs nothing from outside -/
def didKey
    (did : String) :
    Prog (ResolveEff.Res Key) (Resolved Key) :=
  pure
    ((resolveDidKey packages.toKeyPackages did).mapError
      .parser)

/- `default_set_with_options` -/
def resolve
    (allowInsecure : Bool)
    (did : String) :
    Prog (ResolveEff.Res Key) (Resolved Key) :=
  resolveWith did
    [didKey packages,
      DidWebResolver.resolve packages
        { allowInsecure := allowInsecure }] none

end CompositeResolver

end Service

end IcpHandler
