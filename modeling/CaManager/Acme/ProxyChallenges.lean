import CaManager.Acme.Proxy
import CaManager.Library.Machines

/-!
# Records for challenges

A challenge belongs to one identifier of an upstream order, and its validation needs a record at
the name of that identifier. The proxy takes the name from the first domain of the order that it
holds the challenge to belong to. Runs place orders, respond to challenges and fetch certificates,
and keep the list of the records that were made beside that of the records that were needed.
-/

namespace CaManager

open Library

namespace ProxyChallenges

open AcmeProxyService

/-- The rows, the records that were made, and those that validations needed when they were
triggered. -/
structure ProxyHost where
  proxy : ClientStore
  made : List TxtRecord := []
  needed : List TxtRecord := []

/-- A request of a client. A challenge that is responded to comes with the identifier that it
belongs to upstream. -/
inductive ProxyEvent
  | newOrder (identifiers : List Identifier) (clientThumbprint : Option String)
      (answer : Answer OrderObject) (now : Time)
  | respond (identifier challId : String) (authzId : Option String) (w : DnsWorld)
      (fetched answer : Answer ChallengeObject)
  | getCertificate (certId : String) (w : DnsWorld) (answer : SentChain) (refid : String)

section Steps

variable [Sha256] (svc : AcmeProxyService)

def neededRecord (st : ClientStore) (identifier challId : String) (authzId : Option String)
    (w : DnsWorld) (fetched : Answer ChallengeObject) : Option TxtRecord :=
  match svc.beforeTrigger st w challId authzId fetched with
  | .ok _ => (fetched.json.toOption.bind dnsToken).map (svc.txtRecord · identifier)
  | .error _ => none

def step [X509Library] (h : ProxyHost) : ProxyEvent → ProxyHost
  | .newOrder identifiers clientThumbprint answer now =>
    { h with proxy := (svc.newOrder h.proxy identifiers clientThumbprint answer now).2 }
  | .respond identifier challId authzId w fetched answer =>
    let responded := (svc.respondChallenge h.proxy w challId authzId fetched answer).2
    { proxy := responded.1
      made := h.made ++ responded.2.toList
      needed := h.needed ++ (neededRecord svc h.proxy identifier challId authzId w fetched).toList }
  | .getCertificate certId w answer refid =>
    { h with proxy := (getCertificate h.proxy w certId answer refid).toOption.getD h.proxy }

/-- Every validation that was triggered had its record made, and no other record was. -/
def Served (h : ProxyHost) : Prop := h.made = h.needed

instance (h : ProxyHost) : Decidable (Served h) := inferInstanceAs (Decidable (h.made = h.needed))

/-- The order that the challenge is taken to belong to has a first domain with a provider, and
where that makes the record, the domain without its wildcard is the identifier. -/
def FirstDomainRight (st : ClientStore) (authzUrl : Option String) (w : DnsWorld)
    (identifier token : String) : Prop :=
  ∃ order first provider, orderFor st authzUrl = some order ∧
    order.domains.head? = some first ∧
    st.findProvider (lstripWildcard first) = some provider ∧
    ∀ p made, createRecord w provider (svc.txtRecord token (lstripWildcard first)) = .ok (p, made) →
      made = true ∧ lstripWildcard first = identifier

/-- What a request must meet: a challenge that needs a record meets an order that has the right
domain first. -/
def MeetsDomain (h : ProxyHost) : ProxyEvent → Prop
  | .respond identifier challId authzId w fetched _ =>
    ∀ url authzUrl challenge token, decodeId challId = .ok url →
      namedAuthz authzId = .ok authzUrl → fetched.statusCode = 200 →
      fetched.json = .ok challenge → dnsToken challenge = some token →
      FirstDomainRight svc h.proxy authzUrl w identifier token
  | _ => True

end Steps

theorem toList_inj {α : Type} {a b : Option α} : a.toList = b.toList ↔ a = b := by
  cases a with
  | none => cases b <;> simp
  | some x => cases b <;> simp

section Responses

variable [Sha256] {svc : AcmeProxyService} {st : ClientStore} {w : DnsWorld}

theorem txtRecord_inj {token d d' : String} :
    svc.txtRecord token d = svc.txtRecord token d' ↔ d = d' :=
  ⟨fun h => congrArg TxtRecord.domain h, fun h => by rw [h]⟩

theorem setUpRecord_right {order : ClientOrder} {token identifier : String} :
    (match svc.setUpRecord st w order token with
      | .ok (_, record) => record = some (svc.txtRecord token identifier)
      | .error _ => True) ↔
      ∃ first provider, order.domains.head? = some first ∧
        st.findProvider (lstripWildcard first) = some provider ∧
        ∀ p made,
          createRecord w provider (svc.txtRecord token (lstripWildcard first)) = .ok (p, made) →
          made = true ∧ lstripWildcard first = identifier := by
  unfold setUpRecord
  cases hfirst : order.domains.head? with
  | none => simp
  | some first =>
    cases hprovider : st.findProvider (lstripWildcard first) with
    | none => simp [hprovider]
    | some provider =>
      cases hcreate : createRecord w provider (svc.txtRecord token (lstripWildcard first)) with
      | error e => simp [hprovider, hcreate, Except.mapError]
      | ok result =>
        obtain ⟨p, made⟩ := result
        cases made with
        | true => simp [hprovider, hcreate, Except.mapError, txtRecord_inj]
        | false => simp [hprovider, hcreate, Except.mapError]

theorem prepare_right {authzUrl : Option String} {challenge : ChallengeObject}
    {identifier : String} :
    (match svc.prepare st w authzUrl challenge with
      | .ok (_, record) => record = (dnsToken challenge).map (svc.txtRecord · identifier)
      | .error _ => True) ↔
      ∀ token, dnsToken challenge = some token →
        FirstDomainRight svc st authzUrl w identifier token := by
  unfold prepare FirstDomainRight
  cases htoken : dnsToken challenge with
  | none => simp
  | some token =>
    cases horder : orderFor st authzUrl with
    | none => simp
    | some order => simp [setUpRecord_right]

theorem beforeTrigger_eq {challId : String} {authzId : Option String}
    {fetched : Answer ChallengeObject} {url : String} {authzUrl : Option String}
    {challenge : ChallengeObject} (hurl : decodeId challId = .ok url)
    (hauthz : namedAuthz authzId = .ok authzUrl) (hstatus : fetched.statusCode = 200)
    (hjson : fetched.json = .ok challenge) :
    svc.beforeTrigger st w challId authzId fetched = svc.prepare st w authzUrl challenge := by
  simp [beforeTrigger, hurl, hauthz, hstatus, hjson, Except.mapError]

theorem exists_of_beforeTrigger {challId : String} {authzId : Option String}
    {fetched : Answer ChallengeObject} {result : ClientStore × Option TxtRecord}
    (h : svc.beforeTrigger st w challId authzId fetched = .ok result) :
    ∃ url authzUrl challenge, decodeId challId = .ok url ∧ namedAuthz authzId = .ok authzUrl ∧
      fetched.statusCode = 200 ∧ fetched.json = .ok challenge := by
  simp only [beforeTrigger, bind_eq_ok, ensure_eq_ok, mapError_eq_ok] at h
  obtain ⟨url, hurl, authzUrl, hauthz, _, hstatus, challenge, hjson, _⟩ := h
  exact ⟨url, authzUrl, challenge, hurl, hauthz, hstatus, hjson⟩

theorem respond_right (h : ProxyHost) (identifier challId : String) (authzId : Option String)
    (fetched answer : Answer ChallengeObject) :
    (svc.respondChallenge h.proxy w challId authzId fetched answer).2.2 =
        neededRecord svc h.proxy identifier challId authzId w fetched ↔
      MeetsDomain svc h (.respond identifier challId authzId w fetched answer) := by
  by_cases hstages : ∃ url authzUrl challenge, decodeId challId = .ok url ∧
      namedAuthz authzId = .ok authzUrl ∧ fetched.statusCode = 200 ∧ fetched.json = .ok challenge
  · obtain ⟨url, authzUrl, challenge, hurl, hauthz, hstatus, hjson⟩ := hstages
    have hcondition : MeetsDomain svc h (.respond identifier challId authzId w fetched answer) ↔
        ∀ token, dnsToken challenge = some token →
          FirstDomainRight svc h.proxy authzUrl w identifier token := by
      constructor
      · exact fun hmeets token => hmeets url authzUrl challenge token hurl hauthz hstatus hjson
      · intro hright url' authzUrl' challenge' token _ hauthz' _ hjson' htoken
        cases hauthz.symm.trans hauthz'
        cases hjson.symm.trans hjson'
        exact hright token htoken
    rw [hcondition, ← prepare_right]
    unfold respondChallenge neededRecord
    rw [beforeTrigger_eq hurl hauthz hstatus hjson, hjson]
    cases svc.prepare h.proxy w authzUrl challenge with
    | error e => simp
    | ok result => rfl
  · have hfails : ∃ e, svc.beforeTrigger h.proxy w challId authzId fetched = .error e := by
      cases hbefore : svc.beforeTrigger h.proxy w challId authzId fetched with
      | error e => exact ⟨e, rfl⟩
      | ok result => exact absurd (exists_of_beforeTrigger hbefore) hstages
    obtain ⟨e, he⟩ := hfails
    constructor
    · intro _ url authzUrl challenge token hurl hauthz hstatus hjson _
      exact absurd ⟨url, authzUrl, challenge, hurl, hauthz, hstatus, hjson⟩ hstages
    · intro _
      unfold respondChallenge neededRecord
      rw [he]

theorem served_step_iff [X509Library] (h : ProxyHost) (e : ProxyEvent) (hserved : Served h) :
    Served (step svc h e) ↔ MeetsDomain svc h e := by
  have hlists : h.made = h.needed := hserved
  cases e with
  | newOrder identifiers clientThumbprint answer now =>
    unfold Served step
    exact iff_of_true hlists trivial
  | getCertificate certId w answer refid =>
    unfold Served step
    exact iff_of_true hlists trivial
  | respond identifier challId authzId w fetched answer =>
    rw [← respond_right]
    unfold Served step
    dsimp only
    rw [hlists, List.append_right_inj, toList_inj]

end Responses

/-- In every run, each validation that is triggered has its record and no other record is made,
exactly if every challenge meets an order that has the right domain first, with a provider that
makes the record or raises. -/
theorem challenges_run_iff [Sha256] [X509Library] (svc : AcmeProxyService) (st : ClientStore)
    (es : List ProxyEvent) :
    (∀ pre, pre <+: es → Served (run (step svc) ⟨st, [], []⟩ pre)) ↔
      Meets (step svc) (MeetsDomain svc) ⟨st, [], []⟩ es :=
  forall_prefix_iff_meets (I := fun _ => True) (fun h e _ hserved => served_step_iff h e hserved)
    (fun _ _ _ _ _ => trivial) es trivial rfl

section Sample

@[reducible] def sampleDigest : Sha256 := ⟨id⟩

def sampleDns : DnsWorld := ⟨fun _ => .ok (), fun _ _ => .ok (true, "created")⟩

def sampleDomains : ClientStore :=
  { store := sampleStore, domains := [("example.com", 1), ("example.org", 1)]
    providers := (∅ : Table DnsProvider).insert ⟨0, "dns", "manual", none⟩ }

def secondChallenge : List ProxyEvent :=
  [.newOrder [⟨some "dns", some "example.com"⟩, ⟨some "dns", some "example.org"⟩] none
      { statusCode := 201, json := .ok { authorizations := some ["a", "b"] }, location := some "u" }
      0,
    .respond "example.org" (encodeId "c") none sampleDns
      { statusCode := 200, json := .ok { type := some "dns-01", token := some "t" } }
      { statusCode := 200, json := .ok {} }]

/-- The record for the second domain is made at the first. -/
theorem record_elsewhere : let _ := sampleDigest; let _ := sampleLibrary
    ¬∀ pre, pre <+: secondChallenge →
      Served (run (step ⟨"https://ca.example", "https://upstream.example/dir", "k"⟩)
        ⟨sampleDomains, [], []⟩ pre) := by
  intro _ _ h
  have hserved := h secondChallenge (List.prefix_refl _)
  revert hserved
  decide +kernel

end Sample

end ProxyChallenges

end CaManager
