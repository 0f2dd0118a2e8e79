import IcpHandler.Service.Idempotent

/-
  The `tools/call` method of the MCP surface: every intent is
  a tool, and a call of it becomes a protected request of the
  tenant's own MCP agent. What the request comes to is then
  rendered as the result of the tool, or as its error; the
  rendering is left out.

  Main declarations:
    * `StoredKey`, `ToolsCall`
    * `ToolsCall.target`, `ToolsCall.key`
    * `ToolRequest`
    * `handleToolsCall`
-/

------------------------------------------------------------
-- Keys and Calls
------------------------------------------------------------

namespace IcpHandler

namespace Model

/- `ApiKeyInfo`, with the fields that its holder must meet. -/
structure StoredKey extends ApiKeyInfo where
  key : String
  allowedAgents : Option (List String) := none
  expiresAt : Option DateTime := none

namespace StoredKey

/- `ApiKeyInfo::is_expired_at` -/
def isExpiredAt (info : StoredKey) (now : DateTime) : Bool :=
  info.expiresAt.any fun expiresAt => expiresAt ≤ now

/- `ApiKeyInfo::permits_agent` -/
def permitsAgent (info : StoredKey) (agentId : String) : Bool :=
  info.allowedAgents.all fun agents =>
    agents.any fun allowed => allowed == "*" || allowed == agentId

end StoredKey

/- What a call of `tools/call` brings. -/
structure ToolsCall where
  /- the `Authorization` header, when it is a text -/
  authorization : Option String
  params : Option Json

/- An error of JSON-RPC, by its code and message. -/
structure RpcError where
  code : Int
  message : String

end Model

end IcpHandler

------------------------------------------------------------
-- Requests
------------------------------------------------------------

namespace IcpHandler

namespace Service

open Model

/- The tool that is called, as an intent, with its arguments. -/
structure ToolTarget where
  intent : Intent
  arguments : Json

/- Read the name of the tool and the arguments. -/
def ToolsCall.target
    (call : ToolsCall) : Except RpcError ToolTarget :=
  match call.params with
  | none => .error ⟨-32602, "tools/call: params required"⟩
  | some params =>
      match (params.get? "name").bind Json.asStr? with
      | none =>
          .error ⟨-32602, "tools/call: params.name required"⟩
      | some name =>
          let arguments :=
            (params.get? "arguments").getD (.obj [])
          match Text.stripPrefix "icp_" name with
          | none => .error ⟨-32602, "unknown tool: " ++ name⟩
          | some intentName =>
              match Intent.parse ("intent." ++ intentName) with
              | .error e =>
                  .error ⟨-32602, "unknown tool: " ++ e.display⟩
              | .ok intent => .ok ⟨intent, arguments⟩

/- `ApiKeyStore::lookup`, by the bearer token of the call. -/
def ToolsCall.key
    (keys : List StoredKey)
    (call : ToolsCall) : Except RpcError StoredKey :=
  match call.authorization.bind (Text.stripPrefix "Bearer ") with
  | none =>
      .error ⟨-32001, "Bearer token required for MCP tool call"⟩
  | some bearer =>
      match keys.find? fun info => info.key == bearer with
      | none => .error ⟨-32001, "unknown API key"⟩
      | some info => .ok info

/- A call that names a tool, under the key of a tenant. -/
structure ToolRequest extends ToolTarget where
  tenant : StoredKey

namespace ToolRequest

/- The MCP agent of the tenant. -/
def agent (request : ToolRequest) : AgentIdentifier :=
  ⟨"did:stateset:agent:mcp-" ++ request.tenant.tenantId⟩

/- A string among the arguments. -/
def argument
    (request : ToolRequest)
    (name : String) : Option String :=
  (request.arguments.get? name).bind Json.asStr?

/-
  The idempotency key of a call: the tool and the transaction
  it names. The other arguments are not in it.
-/
def idemKey (request : ToolRequest) : Option String :=
  ((request.argument "transaction_id").filter
      fun _ => request.intent.isStateChange).map
    fun id => "mcp:" ++ request.intent.wireName ++ ":" ++ id

def envelope (request : ToolRequest) : IntentEnvelope :=
  { intent := request.intent.wireName
    transactionId := request.argument "transaction_id"
    agentId := request.agent.raw
    params := request.arguments
    context :=
      { currency := request.argument "currency"
        jurisdiction := request.argument "jurisdiction" } }

/- `IntentInput::for_compat`, under the id of the request. -/
def input
    (request : ToolRequest)
    (token : String) : IntentInput :=
  { envelope := request.envelope
    agent := request.agent
    tenant := request.tenant.toApiKeyInfo
    requestId := "req_" ++ token
    skipMandateCheck := true }

end ToolRequest

/- The request of a call, before its key has been checked. -/
def ToolsCall.request
    (keys : List StoredKey)
    (call : ToolsCall) : Except RpcError ToolRequest :=
  match ToolsCall.target call with
  | .error e => .error e
  | .ok target =>
      match ToolsCall.key keys call with
      | .error e => .error e
      | .ok tenant => .ok { target with tenant := tenant }

end Service

end IcpHandler

------------------------------------------------------------
-- The Method
------------------------------------------------------------

namespace IcpHandler

namespace Service

open Model Concurrency

variable (svc : IcpService)

/-
  What a call comes to: an error of the protocol, or what the
  result of the tool is rendered from.
-/
abbrev ToolsCallResult := Except RpcError ExecutionResult

/- The service is asked, under the call's idempotency key. -/
def callService
    (request : ToolRequest) :
    Prog DedupEff.Res ToolsCallResult := do
  let token ← perform (.inner .uuid)
  let result ←
    handleIntentIdempotent svc
      (request.input (innerAnswer .uuid token)) request.idemKey
  pure (.ok result)

def handleToolsCall
    (keys : List StoredKey)
    (call : ToolsCall) :
    Prog DedupEff.Res ToolsCallResult :=
  match ToolsCall.request keys call with
  | .error e => pure (.error e)
  | .ok request => do
      let now ← perform (.inner .now)
      if request.tenant.isExpiredAt (innerAnswer .now now) then
        pure (.error ⟨-32001, "API key expired"⟩)
      else if !request.tenant.permitsAgent request.agent.raw then
        pure (.error ⟨-32001,
          "agent `" ++ request.agent.raw ++
            "` is not allowed for this API key"⟩)
      else callService svc request

end Service

end IcpHandler
