import CaManager.Acme.Client
import Mathlib.Data.List.ReduceOption

/-!
# Challenges of an order

Each authorization that the authority returns for an order has a challenge of the requested type.
The client keeps them in a dictionary under the identifier's value. A domain and its wildcard have
two authorizations with the same value. Setting up and submitting go through the dictionary.
-/

namespace CaManager

open Library

namespace ChallengeCoverage

open AcmeClientService

section Server

variable (server : OrderServer)

/-- The authorization at an address, where the authority answers with success. -/
def fetched (url : String) : Option AuthzObject :=
  match server.authz url with
  | .ok answer => if answer.statusCode = 200 then answer.json.toOption else none
  | .error _ => none

def identifierOf (url : String) : Option String :=
  ((fetched server url).bind AuthzObject.identifier).bind Identifier.value

def offered (challengeType url : String) : Option ChallengeObject :=
  (fetched server url).bind fun authz =>
    (authz.challenges.getD []).find? fun c => c.type = some challengeType

/-- Every authorization is answered with a challenge of the type, and authorizations with the same
identifier offer the same challenge. -/
def Separate (challengeType : String) (authorizations : List String) : Prop :=
  (∀ url ∈ authorizations, (offered server challengeType url).isSome = true) ∧
    ∀ url ∈ authorizations, ∀ url' ∈ authorizations,
      identifierOf server url = identifierOf server url' →
        offered server challengeType url = offered server challengeType url'

end Server

section Offers

variable {server : OrderServer} {challengeType url : String}

theorem firstOfType_eq_ok {cs : List ChallengeObject} {found : Option ChallengeObject}
    (h : firstOfType challengeType cs = .ok found) :
    found = cs.find? fun c => c.type = some challengeType := by
  induction cs with
  | nil => exact (Except.ok.inj h).symm
  | cons c cs ih =>
    simp only [firstOfType, bind_eq_ok, orThrow_eq_ok] at h
    obtain ⟨type, htype, h⟩ := h
    rw [List.find?_cons]
    split_ifs at h with heq
    · rw [pure_eq_ok] at h
      simp [htype, heq, h]
    · simp [htype, heq, ih h]

theorem type_of_offered {c : ChallengeObject} (h : offered server challengeType url = some c) :
    c.type = some challengeType := by
  obtain ⟨authz, -, hfind⟩ := Option.bind_eq_some_iff.mp h
  simpa using List.find?_some hfind

end Offers

section Entries

variable [Sha256] {svc : AcmeClientService} {server : OrderServer} {challengeType url : String}

theorem storedChallenge_eq_ok {domain : String} {c : ChallengeObject} {stored : StoredChallenge}
    (h : svc.storedChallenge challengeType domain c = .ok stored) :
    c.url = some stored.url ∧ c.token = some stored.token ∧ c.status = some stored.status := by
  simp only [storedChallenge, bind_eq_ok, orThrow_eq_ok, pure_eq_ok] at h
  obtain ⟨token, htoken, url, hurl, status, hstatus, rfl⟩ := h
  exact ⟨hurl, htoken, hstatus⟩

theorem authzEntry_eq_ok {found : Option (String × StoredChallenge)}
    (h : svc.authzEntry server challengeType url = .ok found) :
    (found = none ∧ offered server challengeType url = none) ∨
      ∃ domain c stored, found = some (domain, stored) ∧ identifierOf server url = some domain ∧
        offered server challengeType url = some c ∧
        svc.storedChallenge challengeType domain c = .ok stored := by
  simp only [authzEntry, bind_eq_ok] at h
  obtain ⟨answer, hanswer, h⟩ := h
  split_ifs at h with hstatus
  · simp only [bind_eq_ok, orThrow_eq_ok] at h
    obtain ⟨authz, hjson, identifier, hidentifier, domain, hdomain, first, hfirst, h⟩ := h
    have hfetched : fetched server url = some authz := by
      simp only [fetched, hanswer, if_pos hstatus, hjson, Except.toOption]
    have hoffered : offered server challengeType url = first := by
      rw [offered, hfetched, firstOfType_eq_ok hfirst]
      rfl
    cases first with
    | none =>
      rw [pure_eq_ok] at h
      exact .inl ⟨h.symm, hoffered⟩
    | some c =>
      obtain ⟨stored, hstored, h⟩ := bind_eq_ok.mp h
      rw [pure_eq_ok] at h
      refine .inr ⟨domain, c, stored, h.symm, ?_, hoffered, hstored⟩
      rw [identifierOf, hfetched, Option.bind_some, hidentifier, Option.bind_some, hdomain]
  · rw [pure_eq_ok] at h
    refine .inl ⟨h.symm, ?_⟩
    simp only [offered, fetched, hanswer, if_neg hstatus, Option.bind_none]

theorem eq_of_storedChallenge {domain domain' : String} {c c' : ChallengeObject}
    {stored : StoredChallenge} (h : svc.storedChallenge challengeType domain c = .ok stored)
    (h' : svc.storedChallenge challengeType domain' c' = .ok stored) (htype : c.type = c'.type) :
    c = c' := by
  obtain ⟨hurl, htoken, hstatus⟩ := storedChallenge_eq_ok h
  obtain ⟨hurl', htoken', hstatus'⟩ := storedChallenge_eq_ok h'
  cases c
  cases c'
  simp_all

end Entries

section Submitting

variable {post : String → Except PyError (Answer ChallengeObject)} {order : ClientOrder}
  {domain : String}

def storedUrl (order : ClientOrder) (domain : String) : Option String :=
  (order.challenges.lookup domain).map StoredChallenge.url

theorem verifyChallenge_cases :
    (verifyChallenge post order domain).1.posted = storedUrl order domain ∧
      ((verifyChallenge post order domain).2 = order ∨
        ∃ challenge status, order.challenges.lookup domain = some challenge ∧
          (verifyChallenge post order domain).2.challenges =
            setEntry domain { challenge with status } order.challenges) := by
  unfold verifyChallenge storedUrl
  cases hlookup : order.challenges.lookup domain with
  | none => exact ⟨rfl, .inl rfl⟩
  | some challenge =>
    simp only [Option.map_some]
    cases hpost : post challenge.url with
    | error e => exact ⟨rfl, .inl rfl⟩
    | ok answer =>
      simp only [ok_bind]
      by_cases hstatus : answer.statusCode = 200
      · rw [if_pos hstatus]
        cases answer.json with
        | error e => exact ⟨rfl, .inl rfl⟩
        | ok result => exact ⟨rfl, .inr ⟨challenge, _, rfl, rfl⟩⟩
      · rw [if_neg hstatus]
        cases answer.detail with
        | error e => exact ⟨rfl, .inl rfl⟩
        | ok detail => exact ⟨rfl, .inl rfl⟩

theorem storedUrl_verifyChallenge (other : String) :
    storedUrl (verifyChallenge post order domain).2 other = storedUrl order other := by
  obtain ⟨-, heq | ⟨challenge, status, hlookup, hchallenges⟩⟩ :=
    @verifyChallenge_cases post order domain
  · rw [heq]
  · unfold storedUrl
    rw [hchallenges]
    by_cases hother : domain = other
    · subst hother
      rw [lookup_setEntry_self, hlookup]
      rfl
    · rw [lookup_setEntry_of_ne hother]

def submitNext (post : String → Except PyError (Answer ChallengeObject)) (keys : List String)
    (q : List Submitted × ClientOrder) (d : String) : List Submitted × ClientOrder :=
  if d ∈ keys then
    (q.1 ++ [(verifyChallenge post q.2 d).1], (verifyChallenge post q.2 d).2)
  else (q.1 ++ [⟨false, "Domain not in order", none⟩], q.2)

theorem posted_of_mem_submitted {keys domains : List String} {q : List Submitted × ClientOrder}
    (hdomain : domain ∈ domains) (hkey : domain ∈ keys) :
    ∃ r ∈ (domains.foldl (submitNext post keys) q).1, r.posted = storedUrl q.2 domain := by
  have hkeep : ∀ (ds : List String) (q : List Submitted × ClientOrder) (r : Submitted),
      r ∈ q.1 → r ∈ (ds.foldl (submitNext post keys) q).1 := by
    intro ds
    induction ds with
    | nil => exact fun _ _ hr => hr
    | cons d ds ih =>
      intro q r hr
      refine ih _ r ?_
      unfold submitNext
      split_ifs
      · exact List.mem_append_left _ hr
      · exact List.mem_append_left _ hr
  induction domains generalizing q with
  | nil => cases hdomain
  | cons d ds ih =>
    rcases List.mem_cons.mp hdomain with rfl | hds
    · refine ⟨(verifyChallenge post q.2 domain).1, hkeep ds _ _ ?_, verifyChallenge_cases.1⟩
      rw [submitNext, if_pos hkey]
      exact List.mem_append_right _ (List.mem_singleton.mpr rfl)
    · obtain ⟨r, hr, hposted⟩ := ih (q := submitNext post keys q d) hds
      refine ⟨r, hr, hposted.trans ?_⟩
      unfold submitNext
      split_ifs
      · exact storedUrl_verifyChallenge domain
      · rfl

theorem posted_verifyChallenges (hkey : domain ∈ order.challenges.map Prod.fst) :
    ∃ r ∈ (verifyChallenges post order none).1, r.posted = storedUrl order domain :=
  posted_of_mem_submitted (q := ([], order)) hkey hkey

theorem setUp_of_mem {e : String × StoredChallenge}
    (he : e ∈ order.challenges) {st : ClientStore} {w : DnsWorld}
    {outcomes : List (String × SetupOutcome)}
    (h : setupDnsChallenge st w order = .ok (.ok outcomes)) :
    ∃ o, (e.1, o) ∈ outcomes ∧ o.recordName = e.2.dnsTxtName ∧
      o.recordValue = e.2.dnsTxtValue := by
  unfold setupDnsChallenge at h
  split_ifs at h with htype hnone
  · cases h
  · cases h
  cases hprovider : setupProvider st w order with
  | error message =>
    rw [hprovider] at h
    cases h
  | ok provider =>
    rw [hprovider] at h
    obtain ⟨outcomes', hall, heq⟩ := map_eq_ok.mp h
    cases heq
    obtain ⟨outcome, houtcome⟩ := exists_of_mapM_eq_ok hall he
    have hmem := (mem_iff_of_mapM_eq_ok hall).mpr ⟨e, he, houtcome⟩
    simp only [setupEntry, bind_eq_ok, pure_eq_ok] at houtcome
    obtain ⟨⟨success, message⟩, _, rfl⟩ := houtcome
    exact ⟨_, hmem, rfl, rfl⟩

theorem submitted_of_mem (hnodup : (order.challenges.map Prod.fst).Nodup)
    {e : String × StoredChallenge} (he : e ∈ order.challenges)
    (post : String → Except PyError (Answer ChallengeObject)) :
    (verifyChallenge post order e.1).1.posted = some e.2.url ∧
      ∃ r ∈ (verifyChallenges post order none).1, r.posted = some e.2.url := by
  have hurl : storedUrl order e.1 = some e.2.url := by
    rw [storedUrl, lookup_of_mem hnodup he, Option.map_some]
  obtain ⟨r, hr, hposted⟩ := @posted_verifyChallenges post order e.1 (List.mem_map_of_mem he)
  exact ⟨verifyChallenge_cases.1.trans hurl, r, hr, hposted.trans hurl⟩

end Submitting

section Coverage

variable [Sha256]

/-- The challenge of every authorization is kept, has its record made where records are, and is
submitted, alone or with all. -/
structure Covered (svc : AcmeClientService) (server : OrderServer) (challengeType : String)
    (authorizations : List String) (order : ClientOrder) : Prop where
  stored : ∀ url ∈ authorizations,
    ∃ e ∈ order.challenges, svc.authzEntry server challengeType url = .ok (some e)
  setUp : ∀ url ∈ authorizations, ∀ e, svc.authzEntry server challengeType url = .ok (some e) →
    ∀ st w outcomes, setupDnsChallenge st w order = .ok (.ok outcomes) →
      ∃ o, (e.1, o) ∈ outcomes ∧ o.recordName = e.2.dnsTxtName ∧ o.recordValue = e.2.dnsTxtValue
  submitted : ∀ url ∈ authorizations, ∀ e,
    svc.authzEntry server challengeType url = .ok (some e) → ∀ post,
      (verifyChallenge post order e.1).1.posted = some e.2.url ∧
        ∃ r ∈ (verifyChallenges post order none).1, r.posted = some e.2.url

variable {svc : AcmeClientService} {server : OrderServer} {challengeType : String}

theorem exists_of_placeOrder {domains : List String} {dnsProviderId : Option ℕ} {now : Time}
    {order : ClientOrder}
    (h : svc.placeOrder server domains challengeType dnsProviderId now = .ok order) :
    ∃ answer data entries, server.newOrder = .ok answer ∧ answer.json = .ok data ∧
      (data.authorizations.getD []).mapM (svc.authzEntry server challengeType) = .ok entries ∧
      order.challenges = setEntries [] entries.reduceOption := by
  simp only [placeOrder, bind_eq_ok, mapError_eq_ok] at h
  obtain ⟨_, _, _, _, answer, hanswer, h⟩ := h
  split_ifs at h with hstatus
  · simp only [bind_eq_ok, mapError_eq_ok, orderRow, orThrow_eq_ok, pure_eq_ok] at h
    obtain ⟨data, hjson, _, _, _, _, entries, hentries, rfl⟩ := h
    exact ⟨answer, data, entries, hanswer, hjson, hentries, rfl⟩
  · simp only [refusal, bind_eq_ok] at h
    obtain ⟨_, _, h⟩ := h
    cases h

theorem exists_of_authzEntry {url : String} {e : String × StoredChallenge}
    (h : svc.authzEntry server challengeType url = .ok (some e)) :
    ∃ c, identifierOf server url = some e.1 ∧ offered server challengeType url = some c ∧
      svc.storedChallenge challengeType e.1 c = .ok e.2 := by
  rcases authzEntry_eq_ok h with ⟨hnone, -⟩ | ⟨domain, c, stored, heq, hidentifier, hoffered, hstored⟩
  · cases hnone
  · cases heq
    exact ⟨c, hidentifier, hoffered, hstored⟩

section Dictionary

variable {authorizations : List String} {entries : List (Option (String × StoredChallenge))}

theorem eq_of_separate (hseparate : Separate server challengeType authorizations)
    (h : authorizations.mapM (svc.authzEntry server challengeType) = .ok entries)
    {e e' : String × StoredChallenge} (he : e ∈ entries.reduceOption)
    (he' : e' ∈ entries.reduceOption) (hkey : e.1 = e'.1) : e = e' := by
  rw [List.reduceOption_mem_iff] at he he'
  obtain ⟨url, hurl, hentry⟩ := (mem_iff_of_mapM_eq_ok h).mp he
  obtain ⟨url', hurl', hentry'⟩ := (mem_iff_of_mapM_eq_ok h).mp he'
  obtain ⟨c, hidentifier, hoffered, hc⟩ := exists_of_authzEntry hentry
  obtain ⟨c', hidentifier', hoffered', hc'⟩ := exists_of_authzEntry hentry'
  have hoffers := hseparate.2 url hurl url' hurl' (by rw [hidentifier, hidentifier', hkey])
  rw [hoffered, hoffered', Option.some.injEq] at hoffers
  rw [hkey, hoffers, hc'] at hc
  exact Prod.ext hkey (Except.ok.inj hc).symm

theorem stored_of_separate (hseparate : Separate server challengeType authorizations)
    (h : authorizations.mapM (svc.authzEntry server challengeType) = .ok entries) {url : String}
    (hurl : url ∈ authorizations) :
    ∃ e ∈ setEntries [] entries.reduceOption,
      svc.authzEntry server challengeType url = .ok (some e) := by
  obtain ⟨found, hfound⟩ := exists_of_mapM_eq_ok h hurl
  obtain ⟨e, rfl⟩ : ∃ e, found = some e := by
    rcases authzEntry_eq_ok hfound with ⟨-, hnone⟩ | ⟨domain, _, stored, heq, _⟩
    · have hsome := hseparate.1 url hurl
      rw [hnone] at hsome
      cases hsome
    · exact ⟨(domain, stored), heq⟩
  have hmem : e ∈ entries.reduceOption :=
    List.reduceOption_mem_iff.mpr ((mem_iff_of_mapM_eq_ok h).mpr ⟨url, hurl, hfound⟩)
  have hlookup : (setEntries [] entries.reduceOption).lookup e.1 = some e.2 :=
    lookup_setEntries_iff.mpr (fun e he e' he' => eq_of_separate hseparate h he he') e hmem
  exact ⟨e, mem_of_lookup hlookup, hfound⟩

theorem separate_of_stored
    (hstored : ∀ url ∈ authorizations, ∃ e ∈ setEntries [] entries.reduceOption,
      svc.authzEntry server challengeType url = .ok (some e)) :
    Separate server challengeType authorizations := by
  have hnodup : ((setEntries [] entries.reduceOption).map Prod.fst).Nodup :=
    nodup_keys_setEntries List.nodup_nil
  constructor
  · intro url hurl
    obtain ⟨e, -, he⟩ := hstored url hurl
    obtain ⟨c, -, hoffered, -⟩ := exists_of_authzEntry he
    rw [hoffered]
    rfl
  · intro url hurl url' hurl' hidentifiers
    obtain ⟨e, hmem, he⟩ := hstored url hurl
    obtain ⟨e', hmem', he'⟩ := hstored url' hurl'
    obtain ⟨c, hidentifier, hoffered, hc⟩ := exists_of_authzEntry he
    obtain ⟨c', hidentifier', hoffered', hc'⟩ := exists_of_authzEntry he'
    have hkey : e.1 = e'.1 := by
      rw [hidentifier, hidentifier'] at hidentifiers
      exact Option.some.inj hidentifiers
    have hvalue : e.2 = e'.2 := by
      have hlookup := lookup_of_mem hnodup hmem
      rw [hkey, lookup_of_mem hnodup hmem'] at hlookup
      exact (Option.some.inj hlookup).symm
    have htype : c.type = c'.type :=
      (type_of_offered hoffered).trans (type_of_offered hoffered').symm
    rw [hoffered, hoffered', eq_of_storedChallenge (hvalue ▸ hc) hc' htype]

theorem stored_iff (h : authorizations.mapM (svc.authzEntry server challengeType) = .ok entries) :
    (∀ url ∈ authorizations, ∃ e ∈ setEntries [] entries.reduceOption,
        svc.authzEntry server challengeType url = .ok (some e)) ↔
      Separate server challengeType authorizations :=
  ⟨separate_of_stored, fun hseparate _ hurl => stored_of_separate hseparate h hurl⟩

end Dictionary

theorem covered_of_stored {authorizations : List String} {order : ClientOrder}
    (hnodup : (order.challenges.map Prod.fst).Nodup)
    (h : ∀ url ∈ authorizations,
      ∃ e ∈ order.challenges, svc.authzEntry server challengeType url = .ok (some e)) :
    Covered svc server challengeType authorizations order := by
  refine ⟨h, ?_, ?_⟩
  · intro url hurl e he st w outcomes hsetup
    obtain ⟨e', hmem, he'⟩ := h url hurl
    cases he.symm.trans he'
    exact setUp_of_mem hmem hsetup
  · intro url hurl e he post
    obtain ⟨e', hmem, he'⟩ := h url hurl
    cases he.symm.trans he'
    exact submitted_of_mem hnodup hmem post

/-- The challenges of an order that was created cover the authorizations that the authority
returned exactly if these are separate. -/
theorem createOrder_covered_iff {st st' : ClientStore} {domains : List String}
    {dnsProviderId : Option ℕ} {now : Time} {message : String} {order : ClientOrder}
    {answer : Answer DatedOrder} {data : DatedOrder} (hanswer : server.newOrder = .ok answer)
    (hdata : answer.json = .ok data)
    (h : svc.createOrder st server domains challengeType dnsProviderId now =
      ((true, message, some order), st')) :
    Covered svc server challengeType (data.authorizations.getD []) order ↔
      Separate server challengeType (data.authorizations.getD []) := by
  unfold createOrder at h
  cases hplaced : svc.placeOrder server domains challengeType dnsProviderId now with
  | error e =>
    rw [hplaced] at h
    cases h
  | ok placed =>
    rw [hplaced] at h
    cases h
    obtain ⟨answer', data', entries, hanswer', hdata', hentries, hchallenges⟩ :=
      exists_of_placeOrder hplaced
    cases hanswer.symm.trans hanswer'
    cases hdata.symm.trans hdata'
    rw [← stored_iff hentries, ← hchallenges]
    refine ⟨fun hcovered => hcovered.stored, fun hstored => covered_of_stored ?_ hstored⟩
    change (placed.challenges.map Prod.fst).Nodup
    rw [hchallenges]
    exact nodup_keys_setEntries List.nodup_nil

end Coverage

section Sample

@[reducible] def spelledOut : Sha256 := ⟨id⟩

def sampleClient : AcmeClientService := ⟨"staging", some "account", "k"⟩

def sampleData : DatedOrder := { authorizations := some ["a", "b"], expires := some (.ok 0) }

def orderAnswer : Answer DatedOrder :=
  { statusCode := 201, json := .ok sampleData, location := some "u" }

def authzAnswer (domain challenge token : String) : Answer AuthzObject :=
  { statusCode := 200
    json := .ok
      { identifier := some ⟨some "dns", some domain⟩
        challenges := some [⟨some challenge, some "dns-01", some token, some "pending"⟩] } }

def sampleServer (domain domain' : String) : OrderServer :=
  { account := (true, ""), directory := .ok (), newOrder := .ok orderAnswer
    authz := fun url =>
      .ok (if url = "a" then authzAnswer domain "c" "t" else authzAnswer domain' "c'" "t'") }

def noOrders : ClientStore := { store := sampleStore }

/-- Two names have a challenge each. -/
theorem covered_two_names : let _ := spelledOut
    ∃ message order st',
      sampleClient.createOrder noOrders (sampleServer "example.com" "example.org")
        ["example.com", "example.org"] "dns-01" none 0 = ((true, message, some order), st') ∧
      Covered sampleClient (sampleServer "example.com" "example.org") "dns-01" ["a", "b"] order := by
  intro _
  have hdata : orderAnswer.json = .ok sampleData := rfl
  refine ⟨_, _, _, rfl, (createOrder_covered_iff rfl hdata rfl).mpr ?_⟩
  unfold Separate
  decide

/-- A domain and its wildcard share an identifier, and the challenge of one is lost. -/
theorem wildcard_overwrites : let _ := spelledOut
    ∃ message order st',
      sampleClient.createOrder noOrders (sampleServer "example.com" "example.com")
        ["example.com", "*.example.com"] "dns-01" none 0 = ((true, message, some order), st') ∧
      ¬Covered sampleClient (sampleServer "example.com" "example.com") "dns-01" ["a", "b"]
        order := by
  intro _
  refine ⟨_, _, _, rfl, ?_⟩
  intro hcovered
  obtain ⟨e, hmem, he⟩ := hcovered.stored "a" List.mem_cons_self
  cases he
  revert hmem
  decide

end Sample

end ChallengeCoverage

end CaManager
