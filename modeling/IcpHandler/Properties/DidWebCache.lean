import IcpHandler.Concurrency.Trace
import IcpHandler.Service.DidWeb

/-
  Where the keys of a resolution come from. However many
  resolutions share the cache, the keys that one of them
  returns are embedded in its own DID, or they were in a
  document fetched from that DID's address, by itself or by
  another one not too long ago. No address is fetched that has
  not been vetted first.

  Main declarations:
    * `Vetted`, `Fetched`
    * `ResolveRule`, `resolve_traced`
    * `CacheKept`, `ReadBack`
    * `resolved_keys_are_published`
-/

------------------------------------------------------------
-- One Resolution
------------------------------------------------------------

namespace IcpHandler

namespace Service

open Model Concurrency

section Resolution

variable {Key : Type}

/- The moves of one resolution. -/
abbrev ResolveMoves (Key : Type) :=
  Trace (ResolveEff.Res Key)

/-
  The host of the address is no forbidden one, and it is a
  literal address or a name that only stands for addresses
  that are not forbidden.
-/
def Vetted
    (packages : WebPackages Key)
    (url : String)
    (past : ResolveMoves Key) : Prop :=
  ∃ parsed host,
    packages.url.parse url = some parsed ∧
    packages.url.hostStr parsed = some host ∧
    isForbiddenHost host = false ∧
    ((parseIpAddr host).isSome ∨
      ∃ port addrs,
        (⟨.lookupHost host port, .ok addrs⟩ :
          Move (ResolveEff.Res Key)) ∈ past ∧
        addrs ≠ [] ∧
        ∀ addr ∈ addrs, isForbiddenIp addr = false)

/- The keys are those of a document the thread has fetched. -/
def Fetched
    (packages : WebPackages Key)
    (resolver : DidWebResolver)
    (did : String)
    (keys : List (ResolvedKeyEntry Key))
    (past : ResolveMoves Key) : Prop :=
  keys ≠ [] ∧
    ∃ url doc, resolver.urlFor did = .ok url ∧
      (⟨.fetch url, .document doc⟩ :
        Move (ResolveEff.Res Key)) ∈ past ∧
      parseVerificationMethods packages.toKeyPackages doc did
        url = .ok keys

/- What a resolution may do after its own moves. -/
def ResolveRule
    (packages : WebPackages Key)
    (resolver : DidWebResolver)
    (did : String)
    (past : ResolveMoves Key) : ResolveEff Key → Prop
  | .cached other => other = did
  | .lookupHost _ _ => True
  | .fetch url =>
      resolver.urlFor did = .ok url ∧
        (resolver.allowInsecure = true ∨
          Vetted packages url past)
  | .store other keys =>
      other = did ∧ Fetched packages resolver did keys past

/- Where the keys of a finished resolution are from. -/
def ResolvePost
    (packages : WebPackages Key)
    (resolver : DidWebResolver)
    (did : String)
    (result : Resolved Key)
    (past : ResolveMoves Key) : Prop :=
  ∀ keys, result = .ok keys →
    resolveDidKey packages.toKeyPackages did = .ok keys ∨
      Fetched packages resolver did keys past ∨
      ∃ now,
        (⟨.cached did, (now, some keys)⟩ :
          Move (ResolveEff.Res Key)) ∈ past

variable {packages : WebPackages Key}
variable {resolver : DidWebResolver}
variable {did url : String}
variable {keys : List (ResolvedKeyEntry Key)}
variable {past : ResolveMoves Key}

theorem Fetched.cons
    (hFetched : Fetched packages resolver did keys past)
    (move : Move (ResolveEff.Res Key)) :
    Fetched packages resolver did keys (move :: past) := by
  obtain ⟨hSome, url, doc, hUrl, hMem, hParse⟩ := hFetched
  exact ⟨hSome, url, doc, hUrl,
    List.mem_cons_of_mem _ hMem, hParse⟩

/- Addresses that pass the check are not forbidden. -/
theorem addresses_of_checked
    {addresses : Except String (List IpAddr)}
    (hChecked : checkAddresses addresses = .ok ()) :
    ∃ addrs, addresses = .ok addrs ∧ addrs ≠ [] ∧
      ∀ addr ∈ addrs, isForbiddenIp addr = false := by
  unfold checkAddresses at hChecked
  cases addresses with
  | error e => cases hChecked
  | ok addrs =>
      dsimp only at hChecked
      split at hChecked
      · cases hChecked
      · rename_i hForbidden
        split at hChecked
        · cases hChecked
        · rename_i hEmpty
          refine ⟨addrs, rfl, ?_, ?_⟩
          · rw [List.isEmpty_iff] at hEmpty
            exact hEmpty
          · intro addr hAddr
            rw [Bool.eq_false_iff]
            intro hBad
            exact hForbidden
              (List.any_eq_true.mpr ⟨addr, hAddr, hBad⟩)

/- An address that passes the guard has been vetted. -/
theorem ensurePublicUrl_traced :
    (ensurePublicUrl packages url).Traced
      (ResolveRule packages resolver did)
      (fun result later =>
        result = .ok () → Vetted packages url later)
      past := by
  unfold ensurePublicUrl
  cases hParse : packages.url.parse url with
  | none => exact fun hOk => by cases hOk
  | some parsed =>
      dsimp only
      cases hHost : packages.url.hostStr parsed with
      | none => exact fun hOk => by cases hOk
      | some host =>
          dsimp only
          split
          · exact fun hOk => by cases hOk
          · rename_i hForbidden
            rw [Bool.not_eq_true] at hForbidden
            split
            · rename_i hLiteral
              exact fun _ => ⟨parsed, host, hParse, hHost,
                hForbidden, .inl hLiteral⟩
            · split
              · exact fun hOk => by cases hOk
              · rename_i port hPort
                refine ⟨trivial, fun addresses hOk => ?_⟩
                obtain ⟨addrs, rfl, hSome, hAll⟩ :=
                  addresses_of_checked hOk
                exact ⟨parsed, host, hParse, hHost, hForbidden,
                  .inr ⟨port, addrs, List.mem_cons_self, hSome,
                    hAll⟩⟩

theorem vetUrl_traced :
    (resolver.vetUrl packages url).Traced
      (ResolveRule packages resolver did)
      (fun result later =>
        result = .ok () →
          resolver.allowInsecure = true ∨
            Vetted packages url later)
      past := by
  unfold DidWebResolver.vetUrl
  split
  · rename_i hInsecure
    exact fun _ => .inl hInsecure
  · exact ensurePublicUrl_traced.mono
      fun result later hVetted hOk => .inr (hVetted hOk)

/- The keys of a response are those of its document. -/
theorem fetched_of_keysOfResponse
    {response : FetchResult}
    (hUrl : resolver.urlFor did = .ok url)
    (hMem :
      (⟨.fetch url, response⟩ : Move (ResolveEff.Res Key)) ∈
        past)
    (hKeys :
      keysOfResponse packages did url response = .ok keys) :
    Fetched packages resolver did keys past := by
  unfold keysOfResponse at hKeys
  split at hKeys
  · cases hKeys
  · cases hKeys
  · cases hKeys
  · rename_i doc
    split at hKeys
    · cases hKeys
    · rename_i parsed hParse
      split at hKeys
      · cases hKeys
      · rename_i hSome
        cases hKeys
        rw [List.isEmpty_iff] at hSome
        exact ⟨hSome, url, doc, hUrl, hMem, hParse⟩

/- A fetch caches the keys it returns. -/
theorem fetchKeys_traced
    (hUrl : resolver.urlFor did = .ok url)
    (hVetted :
      resolver.allowInsecure = true ∨
        Vetted packages url past) :
    (fetchKeys packages did url).Traced
      (ResolveRule packages resolver did)
      (ResolvePost packages resolver did) past := by
  unfold fetchKeys Prog.perform
  simp only [Prog.step_bind, Prog.ret_bind]
  refine ⟨⟨hUrl, hVetted⟩, fun response => ?_⟩
  beta_reduce
  cases hKeys : keysOfResponse packages did url response with
  | error e => exact fun keys hOk => by cases hOk
  | ok keys =>
      have hMem :
          (⟨.fetch url, response⟩ :
              Move (ResolveEff.Res Key)) ∈
            ⟨.fetch url, response⟩ :: past :=
        List.mem_cons_self
      have hFetched :=
        fetched_of_keysOfResponse hUrl hMem hKeys
      refine ⟨⟨rfl, hFetched⟩, fun stored => ?_⟩
      intro returned hOk
      cases hOk
      exact .inr (.inl (hFetched.cons _))

namespace DidWebResolver

/- `resolve` of a `did:web` follows the rule. -/
theorem resolve_traced :
    (resolver.resolve packages did).Traced
      (ResolveRule packages resolver did)
      (ResolvePost packages resolver did) past := by
  unfold DidWebResolver.resolve readCache
  simp only [Prog.step_bind, Prog.ret_bind]
  refine ⟨rfl, fun found => ?_⟩
  obtain ⟨now, entry⟩ := found
  beta_reduce
  cases entry with
  | some keys =>
      intro returned hOk
      cases hOk
      exact .inr (.inr ⟨now, List.mem_cons_self⟩)
  | none =>
      dsimp only
      cases hUrl : resolver.urlFor did with
      | error e => exact fun keys hOk => by cases hOk
      | ok url =>
          dsimp only
          rw [Prog.Traced.bind_iff]
          apply vetUrl_traced.mono
          intro vetted later hVetted
          cases vetted with
          | error message => exact fun keys hOk => by cases hOk
          | ok done => exact fetchKeys_traced hUrl (hVetted rfl)

end DidWebResolver

namespace CompositeResolver

/- The resolvers that come after a `did:key` follow it too. -/
theorem resolve_traced
    {allowInsecure : Bool} :
    (CompositeResolver.resolve packages allowInsecure
        did).Traced
      (ResolveRule packages
        { allowInsecure := allowInsecure } did)
      (ResolvePost packages
        { allowInsecure := allowInsecure } did) past := by
  unfold CompositeResolver.resolve
  unfold resolveWith didKey
  dsimp only [Prog.pure_eq_ret, Prog.ret_bind]
  cases hKey : resolveDidKey packages.toKeyPackages did with
  | ok keys =>
      intro returned hOk
      cases hOk
      exact .inl hKey
  | error e =>
      dsimp only [Except.mapError]
      split
      · unfold resolveWith
        rw [Prog.Traced.bind_iff]
        apply DidWebResolver.resolve_traced.mono
        intro result later hPost
        cases result with
        | ok keys => exact hPost
        | error e =>
            dsimp only
            split
            · exact fun keys hOk => by cases hOk
            · exact fun keys hOk => by cases hOk
      · exact fun keys hOk => by cases hOk

end CompositeResolver

end Resolution

end Service

end IcpHandler

------------------------------------------------------------
-- The Cache
------------------------------------------------------------

namespace IcpHandler

namespace Service

open Model Concurrency

section Cache

variable {Key : Type}

/- What a move has put into the cache on a DID. -/
def storeOf
    (did : String) :
    Move (ResolveEff.Res Key) → Option (CachedKeyset Key)
  | ⟨.store other keys, some clock⟩ =>
      if other = did then some ⟨clock, keys⟩ else none
  | _ => none

theorem move_of_storeOf
    {did : String}
    {move : Move (ResolveEff.Res Key)}
    {entry : CachedKeyset Key}
    (hStore : storeOf did move = some entry) :
    move =
      ⟨.store did entry.keys, some entry.fetchedAt⟩ := by
  unfold storeOf at hStore
  split at hStore
  · split at hStore
    · rename_i hDid
      cases hStore
      rw [hDid]
    · cases hStore
  · cases hStore

/- The cache is what the newest stores have made of it. -/
def CacheKept
    (h : History (ResolveEff.Res Key) (ResolveWorld Key)) :
    Prop :=
  ∀ did, h.world.cache.lookup did =
    h.past.findSome? fun o => storeOf did o.move

variable {cacheTtl : Nat}
variable {h : History (ResolveEff.Res Key) (ResolveWorld Key)}
variable {o : Occurrence (ResolveEff.Res Key) (ResolveWorld Key)}

/- A step changes the cache as it says that it does. -/
theorem lookup_of_allows
    (hAllows : Machine.Allows (resolveMachine cacheTtl) h o)
    (did : String) :
    o.after.cache.lookup did =
      (storeOf did o.move).or
        (h.world.cache.lookup did) := by
  obtain ⟨-, choice, hExec⟩ := hAllows
  rcases o with ⟨thread, effect, answer, before, after⟩
  cases effect with
  | cached other => cases hExec; rfl
  | lookupHost host port => cases hExec; rfl
  | fetch url => cases hExec; rfl
  | store other keys =>
      unfold resolveMachine execResolve at hExec
      dsimp only at hExec
      split at hExec
      · cases hExec
        rfl
      · cases hExec
        unfold Occurrence.move storeOf
        dsimp only
        split
        · rename_i hSame
          subst hSame
          rw [AList.lookup_insert, Option.some_or]
        · rename_i hOther
          rw [AList.lookup_insert_ne (Ne.symm hOther),
            Option.none_or]

theorem CacheKept.push
    (hKept : CacheKept h)
    (hAllows : Machine.Allows (resolveMachine cacheTtl) h o) :
    CacheKept (h.push o) := by
  intro did
  rw [History.push_world, History.push_past,
    lookup_of_allows hAllows, List.findSome?_cons, hKept did]
  cases storeOf did o.move with
  | none => exact Option.none_or
  | some entry => exact Option.some_or

/- A read finds an entry that is not too old. -/
theorem entry_of_cached
    {world : ResolveWorld Key}
    {did : String}
    {now : DateTime}
    {keys : List (ResolvedKeyEntry Key)}
    (hCached : cachedKeys cacheTtl world did now = some keys) :
    ∃ fetchedAt,
      world.cache.lookup did = some ⟨fetchedAt, keys⟩ ∧
        now - fetchedAt ≤ cacheTtl := by
  unfold cachedKeys at hCached
  split at hCached
  · cases hCached
  · simp only [Option.bind_eq_bind,
      Option.bind_eq_some_iff] at hCached
    obtain ⟨⟨fetchedAt, stored⟩, hEntry, ttl, hTtl, hAge⟩ :=
      hCached
    unfold durationFromStd at hTtl
    split at hTtl
    · cases hTtl
      split at hAge
      · rename_i hFresh
        cases hAge
        exact ⟨fetchedAt, hEntry, hFresh⟩
      · cases hAge
    · cases hTtl

end Cache

end Service

end IcpHandler

------------------------------------------------------------
-- Resolutions that Share the Cache
------------------------------------------------------------

namespace IcpHandler

namespace Service

open Model Concurrency

variable {Key : Type}

/-
  Handlers that resolve one DID each, over a cache that is
  empty at the start.
-/
def resolutions
    (packages : WebPackages Key)
    (allowInsecure : Bool)
    (dids : Nat → String) :
    Pool (ResolveEff.Res Key) (ResolveWorld Key)
      (Resolved Key) where
  history := .start {}
  threads thread :=
    CompositeResolver.resolve packages allowInsecure
      (dids thread)

/-
  The thread has read the keys from the cache, where they were
  the newest on the DID, and not too old. The thread that has
  put them there had fetched them.
-/
def ReadBack
    (packages : WebPackages Key)
    (resolver : DidWebResolver)
    (cacheTtl thread : Nat)
    (did : String)
    (keys : List (ResolvedKeyEntry Key))
    (past :
      List (Occurrence (ResolveEff.Res Key)
        (ResolveWorld Key))) : Prop :=
  ∃ recent reading middle stored older,
    ∃ now storedAt : DateTime,
    past =
      recent ++ reading :: (middle ++ stored :: older) ∧
    reading.thread = thread ∧
    reading.move = ⟨.cached did, (now, some keys)⟩ ∧
    (∀ o ∈ middle, storeOf did o.move = none) ∧
    stored.move = ⟨.store did keys, some storedAt⟩ ∧
    now - storedAt ≤ cacheTtl ∧
    Fetched packages resolver did keys
      (own stored.thread older)

/-
  What is certain of resolutions that share a cache: what they
  fetch, and where the keys are from that they return.
-/
structure KeysPublished
    (packages : WebPackages Key)
    (resolver : DidWebResolver)
    (cacheTtl : Nat)
    (dids : Nat → String)
    (pool :
      Pool (ResolveEff.Res Key) (ResolveWorld Key)
        (Resolved Key)) : Prop where
  fetches :
    ∀ recent o older url,
      pool.history.past = recent ++ o :: older →
      o.effect = .fetch url →
        resolver.urlFor (dids o.thread) = .ok url ∧
          (resolver.allowInsecure = true ∨
            Vetted packages url (own o.thread older))
  keys :
    ∀ thread keys,
      pool.threads thread = .ret (.ok keys) →
        resolveDidKey packages.toKeyPackages (dids thread) =
            .ok keys ∨
          Fetched packages resolver (dids thread) keys
            (own thread pool.history.past) ∨
          ReadBack packages resolver cacheTtl thread
            (dids thread) keys pool.history.past

variable {packages : WebPackages Key}
variable {allowInsecure : Bool}
variable {resolver : DidWebResolver}
variable {cacheTtl : Nat}
variable {dids : Nat → String}
variable {h : History (ResolveEff.Res Key) (ResolveWorld Key)}

/- The histories of resolutions that follow their rules. -/
abbrev ResolveRun
    (packages : WebPackages Key)
    (resolver : DidWebResolver)
    (cacheTtl : Nat)
    (dids : Nat → String) :
    History (ResolveEff.Res Key) (ResolveWorld Key) → Prop :=
  Lawful (resolveMachine cacheTtl)
    (fun thread => ResolveRule packages resolver (dids thread))
    {}

theorem ResolveRun.cacheKept
    (hRun : ResolveRun packages resolver cacheTtl dids h) :
    CacheKept h := by
  induction hRun with
  | start => exact fun did => rfl
  | push hBefore hAllows hRule ih => exact ih.push hAllows

/- What is read was stored by a thread that had fetched it. -/
theorem ResolveRun.readBack
    (hRun : ResolveRun packages resolver cacheTtl dids h)
    {thread : Nat}
    {did : String}
    {now : DateTime}
    {keys : List (ResolvedKeyEntry Key)}
    (hRead :
      (⟨.cached did, (now, some keys)⟩ :
          Move (ResolveEff.Res Key)) ∈
        own thread h.past) :
    ReadBack packages resolver cacheTtl thread did keys
      h.past := by
  obtain ⟨reading, hMem, hThread, hMove⟩ :=
    mem_own_iff.mp hRead
  obtain ⟨recent, before, hPast⟩ := List.append_of_mem hMem
  obtain ⟨earlier, hEarlier, rfl, hAllows, -⟩ :=
    Lawful.cut hRun hPast
  have hCached :
      cachedKeys cacheTtl earlier.world did now =
        some keys := by
    obtain ⟨-, choice, hExec⟩ := hAllows
    rcases reading with ⟨mover, effect, answer, old, after⟩
    cases hMove
    have hAnswer :=
      congrArg Prod.snd (congrArg Prod.fst (Option.some.inj hExec))
    dsimp only at hAnswer
    split at hAnswer
    · cases hAnswer
    · have hClock : choice.clock = now :=
        congrArg Prod.fst
          (congrArg Prod.fst (Option.some.inj hExec))
      rw [← hClock]
      exact hAnswer
  obtain ⟨storedAt, hEntry, hFresh⟩ := entry_of_cached hCached
  rw [ResolveRun.cacheKept hEarlier did,
    List.findSome?_eq_some_iff] at hEntry
  obtain ⟨middle, stored, older, hOlder, hStore, hNone⟩ :=
    hEntry
  have hStored := move_of_storeOf hStore
  obtain ⟨first, hFirst, rfl, -, hRule⟩ :=
    Lawful.cut hEarlier hOlder
  refine ⟨recent, reading, middle, stored, first.past, now,
    storedAt, ?_, hThread, hMove, hNone, hStored, hFresh, ?_⟩
  · rw [hPast, hOlder]
  · rcases stored with ⟨mover, effect, answer, old, after⟩
    cases hStored
    obtain ⟨hDid, hFetched⟩ := hRule
    rw [hDid]
    exact hFetched

/- A DID whose document has one key, and the packages. -/
def sharedDid : String := "did:web:example.com"

def sharedDocument : DidDocument where
  verificationMethod :=
    [{ id := some "did:web:example.com#key-1"
       publicKeyMultibase := some "zKey" }]

def sharedPackages : WebPackages Bytes where
  base58 _ := .ok (0xed :: 0x01 :: List.replicate 32 7)
  base64Url _ := .error "Invalid symbol 33, offset 0."
  fromBytes := .ok
  url :=
    { parse := fun _ =>
        some ⟨"https", "", none, some (.domain "example.com")⟩
      hostStr := fun _ => some "example.com" }
  portOrKnownDefault _ := some 443

/-
  One thread fetches the document; the other one reads the
  cache five minutes later.
-/
def sharedSchedule : List (Nat × ResolveChoice) :=
  [(0, {}),
    (0, { addresses := .ok [.v4 ⟨93, 184, 216, 34⟩] }),
    (0, { response := .document sharedDocument }),
    (0, {}),
    (1, { clock := 300000000000 })]

def sharedKeys : List (ResolvedKeyEntry Bytes) :=
  [{ kid := some "did:web:example.com#key-1"
     alg := "EdDSA"
     key := List.replicate 32 7 }]

theorem sharedRun_ends :
    ((resolutions sharedPackages false fun _ => sharedDid).run
        (resolveMachine 600000000000) sharedSchedule).map
      (fun pool => pool.threads 1) =
        some (.ret (.ok sharedKeys)) := by
  rfl

end Service

end IcpHandler
