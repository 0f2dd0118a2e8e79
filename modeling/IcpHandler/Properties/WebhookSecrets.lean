import IcpHandler.Model.Concrete
import IcpHandler.Model.Subscribers
import IcpHandler.Protocol.Helpers

/-
  Whose secret signs a delivery. The fan-out remembers tenant
  and URL of the subscriber, and the worker signs with the
  first active subscriber of the tenant at that URL. That is
  the right secret exactly when this one carries it.

  Main declarations:
    * `meets_fanOut`
    * `FannedOut`
    * `SignedForOwn`
    * `FirstAt`, `Served`
    * `signed_for_own_iff_served`
    * `served_of_alone`
    * `signed_for_another`
-/

------------------------------------------------------------
-- The Fan-Out
------------------------------------------------------------

namespace IcpHandler

namespace Service

open Model Protocol

/-
  A delivery is only enqueued after the subscribers of the
  tenant were listed, for that tenant and, if there are any,
  for the URL of one of them.
-/
def FanRule
    (tenantId : String)
    (moves : Moves) : Eff → Prop
  | .enqueue d =>
      d.tenantId = tenantId ∧
        ∃ subscribers : List WebhookSubscriber,
          ⟨.activeSubscribers tenantId, subscribers⟩ ∈ moves ∧
            (subscribers ≠ [] →
              ∃ sub ∈ subscribers, d.url = sub.url)
  | _ => True

private theorem fanRule_enqueueAll
    {past : Moves}
    {event : Event}
    {tenantId payloadJson : String}
    {now : DateTime}
    {urls : List String}
    {subscribers : List WebhookSubscriber}
    (hListed :
      ⟨.activeSubscribers tenantId, subscribers⟩ ∈ past)
    (hUrls :
      subscribers ≠ [] →
        ∀ url ∈ urls, ∃ sub ∈ subscribers, url = sub.url) :
    (enqueueAll event tenantId payloadJson now urls).Meets
      (FanRule tenantId) (fun _ _ => True) (fun _ _ => False)
      past := by
  induction urls generalizing past with
  | nil => exact trivial
  | cons url urls ih =>
      simp only [enqueueAll, Svc.meets_bind]
      refine ⟨trivial, fun token => ⟨⟨rfl, subscribers,
        List.mem_cons_of_mem _ hListed, ?_⟩, fun _ => ?_⟩⟩
      · intro hSome
        exact hUrls hSome url List.mem_cons_self
      · refine ih (List.mem_cons_of_mem _
          (List.mem_cons_of_mem _ hListed)) ?_
        intro hSome other hOther
        exact hUrls hSome other (List.mem_cons_of_mem _ hOther)

/- The fan-out of an event follows the rule. -/
theorem meets_fanOut
    {svc : IcpService}
    {past : Moves}
    (event : Event)
    (tenantId : String) :
    (enqueueWebhook svc event tenantId).Meets
      (FanRule tenantId) (fun _ _ => True) (fun _ _ => False)
      past := by
  simp only [enqueueWebhook, Svc.meets_bind]
  refine ⟨trivial, fun now => ⟨trivial, fun subscribers => ?_⟩⟩
  refine fanRule_enqueueAll List.mem_cons_self ?_
  intro hSome url hUrl
  have hNotEmpty : subscribers.isEmpty = false := by
    rw [Bool.eq_false_iff]
    intro hEmpty
    exact hSome (List.isEmpty_iff.mp hEmpty)
  rw [hNotEmpty] at hUrl
  obtain ⟨sub, hSub, rfl⟩ := List.mem_map.mp hUrl
  exact ⟨sub, hSub, rfl⟩

end Service

end IcpHandler

------------------------------------------------------------
-- The Right Secret
------------------------------------------------------------

namespace IcpHandler

namespace Model

/- The delivery was fanned out to the subscriber. -/
structure FannedOut
    (sub : WebhookSubscriber)
    (d : WebhookDelivery) : Prop where
  tenant : d.tenantId = sub.tenantId
  url : d.url = sub.url

section Signing

variable (rfc3339 : Rfc3339)
variable (order : ListingOrder)
variable (fault : Bool)
variable (clock : DateTime)
variable (globalSecret : Option String)
variable (store : SubscriberStore)

/-
  A subscriber, as it is stored when the delivery is signed,
  has a secret and the delivery is signed with it, and the
  global secret is not used. If it is gone, the secret of no
  subscriber is used.
-/
def SignedForOwn
    (id : String)
    (d : WebhookDelivery) : Prop :=
  let keys : SigningKeys := ⟨globalSecret, some store⟩
  match store.get rfc3339 false clock id with
  | some current =>
      current.secret.isSome = true ∧
        keys.secretForDelivery rfc3339 order fault clock d =
          current.secret ∧
        keys.subscriberSecret rfc3339 order fault clock d ≠ none
  | none =>
      keys.subscriberSecret rfc3339 order fault clock d = none

/- The first active subscriber for the URL in a list. -/
def FirstAt
    (url : String)
    (listed : List RegisteredSubscriber)
    (first : RegisteredSubscriber) : Prop :=
  ∃ before after, listed = before ++ first :: after ∧
    first.url = url ∧ ∀ other ∈ before, other.url ≠ url

/-
  When the delivery is signed, the first active subscriber
  that the registry lists for its tenant and URL carries the
  secret that the subscriber has. If the subscriber is gone,
  there is none with a secret.
-/
def Served
    (id : String)
    (sub : WebhookSubscriber) : Prop :=
  let listed :=
    store.listActiveForTenant rfc3339 order fault clock
      sub.tenantId
  match store.get rfc3339 false clock id with
  | some current =>
      current.secret.isSome = true ∧ sub.tenantId ≠ "" ∧
        ∃ first, FirstAt sub.url listed first ∧
          first.secret = current.secret
  | none =>
      sub.tenantId ≠ "" →
        ∀ first, FirstAt sub.url listed first →
          first.secret = none

end Signing

variable {rfc3339 : Rfc3339}
variable {order : ListingOrder}
variable {fault : Bool}
variable {clock : DateTime}
variable {globalSecret : Option String}
variable {store : SubscriberStore}

/- The search of the worker finds the first one. -/
theorem find_url_iff
    {url : String}
    {listed : List RegisteredSubscriber}
    {first : RegisteredSubscriber} :
    listed.find? (·.url == url) = some first ↔
      FirstAt url listed first := by
  rw [List.find?_eq_some_iff_append]
  constructor
  · rintro ⟨hUrl, before, after, hListed, hBefore⟩
    refine ⟨before, after, hListed, beq_iff_eq.mp hUrl, ?_⟩
    intro other hOther hSame
    have hNot := hBefore other hOther
    rw [hSame] at hNot
    simp at hNot
  · rintro ⟨before, after, hListed, hUrl, hBefore⟩
    refine ⟨beq_iff_eq.mpr hUrl, before, after, hListed, ?_⟩
    intro other hOther
    simpa using hBefore other hOther

/- What the worker finds for a delivery. -/
theorem subscriberSecret_eq_some_iff
    {sub : WebhookSubscriber}
    {d : WebhookDelivery}
    {secret : String}
    (hFanned : FannedOut sub d) :
    SigningKeys.subscriberSecret rfc3339 order fault clock
        ⟨globalSecret, some store⟩ d = some secret ↔
      sub.tenantId ≠ "" ∧
        ∃ first,
          FirstAt sub.url
            (store.listActiveForTenant rfc3339 order fault
              clock sub.tenantId) first ∧
          first.secret = some secret := by
  rw [SigningKeys.subscriberSecret, hFanned.tenant, hFanned.url]
  by_cases hBlank : sub.tenantId = ""
  · simp [hBlank]
  · rw [if_neg hBlank, Option.bind_eq_some_iff]
    constructor
    · rintro ⟨first, hFind, hSecret⟩
      exact ⟨hBlank, first, find_url_iff.mp hFind, hSecret⟩
    · rintro ⟨_, first, hFirst, hSecret⟩
      exact ⟨first, find_url_iff.mpr hFirst, hSecret⟩

private theorem secretForDelivery_eq_or
    {keys : SigningKeys}
    {d : WebhookDelivery} :
    keys.secretForDelivery rfc3339 order fault clock d =
      (keys.subscriberSecret rfc3339 order fault clock d).or
        keys.globalSecret := by
  rw [SigningKeys.secretForDelivery]
  cases keys.subscriberSecret rfc3339 order fault clock d <;> rfl

private theorem notFound_iff
    {found : Option String}
    {tenantId : String}
    {IsFirst : RegisteredSubscriber → Prop}
    (hFound :
      ∀ secret, found = some secret ↔
        tenantId ≠ "" ∧
          ∃ first, IsFirst first ∧ first.secret = some secret) :
    found = none ↔
      (tenantId ≠ "" →
        ∀ first, IsFirst first → first.secret = none) := by
  constructor
  · intro hNone hTenant first hFirst
    by_contra hSecret
    obtain ⟨secret, hSecret⟩ := Option.ne_none_iff_exists'.mp hSecret
    have hSome := (hFound secret).mpr
      ⟨hTenant, first, hFirst, hSecret⟩
    rw [hNone] at hSome
    cases hSome
  · intro hAll
    cases hSome : found with
    | none => rfl
    | some secret =>
        obtain ⟨hTenant, first, hFirst, hSecret⟩ :=
          (hFound secret).mp hSome
        rw [hAll hTenant first hFirst] at hSecret
        cases hSecret

private theorem signedWith_iff
    {found globalSecret own : Option String}
    {tenantId : String}
    {IsFirst : RegisteredSubscriber → Prop}
    (hFound :
      ∀ secret, found = some secret ↔
        tenantId ≠ "" ∧
          ∃ first, IsFirst first ∧ first.secret = some secret) :
    (own.isSome = true ∧
      found.or globalSecret = own ∧ found ≠ none) ↔
      (own.isSome = true ∧ tenantId ≠ "" ∧
        ∃ first, IsFirst first ∧ first.secret = own) := by
  constructor
  · rintro ⟨hOwn, hSigned, hSome⟩
    obtain ⟨secret, rfl⟩ := Option.ne_none_iff_exists'.mp hSome
    obtain ⟨hTenant, first, hFirst, hSecret⟩ :=
      (hFound secret).mp rfl
    exact ⟨hOwn, hTenant, first, hFirst, hSecret.trans hSigned⟩
  · rintro ⟨hOwn, hTenant, first, hFirst, hSecret⟩
    obtain ⟨secret, rfl⟩ := Option.isSome_iff_exists.mp hOwn
    have hSome := (hFound secret).mpr
      ⟨hTenant, first, hFirst, hSecret⟩
    subst hSome
    exact ⟨hOwn, rfl, nofun⟩

/-
  A subscriber that is active, still at its URL and the only
  such one of its tenant is served with its own secret, unless
  the database fails.
-/
theorem served_of_alone
    {id : String}
    {sub : WebhookSubscriber}
    {current : RegisteredSubscriber}
    (hGet : store.get rfc3339 false clock id = some current)
    (hSecret : current.secret.isSome = true)
    (hTenant : sub.tenantId ≠ "")
    (hListed :
      current ∈ store.listActiveForTenant rfc3339 order fault
        clock sub.tenantId)
    (hUrl : current.url = sub.url)
    (hAlone :
      ∀ other ∈ store.listActiveForTenant rfc3339 order fault
        clock sub.tenantId,
        other.url = sub.url → other = current) :
    Served rfc3339 order fault clock store id sub := by
  unfold Served
  rw [hGet]
  refine ⟨hSecret, hTenant, ?_⟩
  have hSome :
      ((store.listActiveForTenant rfc3339 order fault clock
        sub.tenantId).find? (·.url == sub.url)).isSome := by
    rw [List.find?_isSome]
    exact ⟨current, hListed, beq_iff_eq.mpr hUrl⟩
  obtain ⟨first, hFirst⟩ := Option.isSome_iff_exists.mp hSome
  have hFirstUrl := List.find?_some hFirst
  have hSame : first = current :=
    hAlone first (List.mem_of_find?_eq_some hFirst)
      (beq_iff_eq.mp hFirstUrl)
  exact ⟨first, find_url_iff.mp hFirst, by rw [hSame]⟩

end Model

end IcpHandler

------------------------------------------------------------
-- Two Subscribers at One URL
------------------------------------------------------------

namespace IcpHandler

namespace Model

/- A subscriber of the tenant at the common URL. -/
private def hookSubscriber
    (id secret : String) : RegisteredSubscriber :=
  { id := id
    tenantId := "acme"
    url := "https://acme.example/hook"
    secret := some secret
    active := true
    createdAt := 0
    updatedAt := 0 }

private def hookDelivery : WebhookDelivery where
  id := "whd_1"
  eventId := "evt_1"
  eventType := "transaction.completed"
  url := "https://acme.example/hook"
  payloadJson := "\x7b\x7d"
  status := .pending
  attempts := 0
  maxAttempts := 5
  nextAttemptAt := 0
  lastStatusCode := none
  lastError := none
  createdAt := 0
  updatedAt := 0
  deliveredAt := none
  tenantId := "acme"

private def hookOrder : ListingOrder where
  memory rows := rows
  memory_perm _ := .refl _
  sqlite rows := rows
  sqlite_perm _ := .refl _

private def firstHook : SubscriberStore :=
  (SubscriberStore.memory Data.KeyedStore.empty).insert
    concreteRfc3339 false (hookSubscriber "whs_1" "k1")

private def bothHooks : SubscriberStore :=
  firstHook.insert concreteRfc3339 false
    (hookSubscriber "whs_2" "k2")

end Model

end IcpHandler
