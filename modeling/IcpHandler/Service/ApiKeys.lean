import Mathlib.Data.List.AList
import IcpHandler.Service.Mcp
import IcpHandler.Service.WebhookSigning

/-
  The store of the keys by which tenants are known. A bearer
  token is compared with every key of the store, in whatever
  order its map iterates.

  Main declarations:
    * `ApiKey`
    * `IterationOrder`, `ApiKeyStore`
    * `ApiKeyStore.new`, `ApiKeyStore.lookup`
    * `validateApiKeys`, `ApiKeyStore.tryNew`
-/

------------------------------------------------------------
-- Keys
------------------------------------------------------------

namespace IcpHandler

namespace Service

open Model

/- `ApiKeyInfo`, with all of its fields. -/
structure ApiKey extends StoredKey where
  name : String
  rateLimitPerMinute : Option UInt32 := none

/- The order in which a map yields what is in it. -/
structure IterationOrder (α : Type) where
  arrange : List α → List α
  perm : ∀ entries, (arrange entries).Perm entries

/- The map of the keys, and its values as they are iterated. -/
structure ApiKeyStore where
  inner : AList fun _ : String => ApiKey
  values : List ApiKey
  perm : values.Perm (inner.entries.map Sigma.snd)

namespace ApiKeyStore

/- `ApiKeyStore::new`: a later key replaces an earlier one. -/
def new
    (order : IterationOrder ApiKey)
    (keys : List ApiKey) : ApiKeyStore :=
  let inner := keys.foldl
    (fun (map : AList fun _ : String => ApiKey) info =>
      map.insert info.key info) ∅
  { inner := inner
    values := order.arrange (inner.entries.map Sigma.snd)
    perm := order.perm _ }

/-
  `lookup`. The scan goes on after a match; it compares as
  signatures are compared.
-/
def lookup
    (store : ApiKeyStore)
    (bearer : String) : Option ApiKey :=
  store.values.foldl
    (fun found info =>
      if constantTimeEq (utf8Bytes info.key)
          (utf8Bytes bearer) then
        some info
      else found) none

end ApiKeyStore

end Service

end IcpHandler

------------------------------------------------------------
-- Validation
------------------------------------------------------------

namespace IcpHandler

namespace Service

open Model

/- What is wrong with a text that has to be a plain one. -/
def textIssues (place text : String) : List String :=
  if (Text.trim text).isEmpty then
    [place ++ " must not be empty"]
  else if Text.trim text != text then
    [place ++ " must not have surrounding whitespace"]
  else []

/- The issues of the agents of an entry. -/
def agentIssues
    (entry : String)
    (agents : List String) : List String :=
  agents.zipIdx.flatMap fun indexed =>
    textIssues
      (entry ++ "allowed_agents[" ++ toString indexed.2 ++ "]")
      indexed.1

/- The issues of one entry, after the keys seen before it. -/
def entryIssues
    (idx : Nat)
    (seen : List String)
    (info : ApiKey) : List String :=
  let entry := "entry " ++ toString idx ++ ": "
  textIssues (entry ++ "key") info.key ++
    textIssues (entry ++ "tenant_id") info.tenantId ++
    (if (Text.trim info.name).isEmpty then
      [entry ++ "name must not be empty"]
    else []) ++
    (if info.key ∈ seen then [entry ++ "duplicate API key"]
    else []) ++
    agentIssues entry (info.allowedAgents.getD [])

def issuesFrom
    (idx : Nat)
    (seen : List String) : List ApiKey → List String
  | [] => []
  | info :: keys =>
      entryIssues idx seen info ++
        issuesFrom (idx + 1) (info.key :: seen) keys

/- `validate_api_keys` -/
def validateApiKeys (keys : List ApiKey) : Except String Unit :=
  let issues := issuesFrom 0 [] keys
  if issues.isEmpty then .ok ()
  else
    .error ("invalid API key configuration: " ++
      "; ".intercalate issues)

/- `ApiKeyStore::try_new` -/
def ApiKeyStore.tryNew
    (order : IterationOrder ApiKey)
    (keys : List ApiKey) : Except String ApiKeyStore :=
  match validateApiKeys keys with
  | .error issues => .error issues
  | .ok () => .ok (.new order keys)

end Service

end IcpHandler
