import CaManager.Acme.Api

/-!
# Whose rows a request writes

A row of the server belongs to an account through the references that lead to it. For each
endpoint the account whose rows a request changes can be read off the request and the state
before it: there is one at most. The signature is the account's own only if the message
happens to be signed so, since no handler asks for the account's key.
-/

namespace CaManager

open Library AcmeService AcmeApi

namespace AcmeStore

/-- Between the two states a row changed that belongs to the account in one of them. A stored
certificate belongs to it through an order that names the certificate, a new one through an
order that came to name it. -/
def Changes (st st' : AcmeStore) (accountId : String) : Prop :=
  st.accounts.find? accountId ≠ st'.accounts.find? accountId ∨
  (∃ id, st.orders.find? id ≠ st'.orders.find? id ∧
    (st.orderOwner id = some accountId ∨ st'.orderOwner id = some accountId)) ∨
  (∃ id, st.authorizations.find? id ≠ st'.authorizations.find? id ∧
    (st.authorizationOwner id = some accountId ∨ st'.authorizationOwner id = some accountId)) ∨
  (∃ id, st.challenges.find? id ≠ st'.challenges.find? id ∧
    (st.challengeOwner id = some accountId ∨ st'.challengeOwner id = some accountId)) ∨
  (∃ id row, st.store.certificates.get? id = some row ∧
    st'.store.certificates.get? id ≠ some row ∧
    ∃ o ∈ st.orders, o.accountId = accountId ∧ o.certificateId = some id) ∨
  (∃ id, st.store.certificates.get? id = none ∧ st'.store.certificates.get? id ≠ none ∧
    ∃ o ∈ st'.orders, o ∉ st.orders ∧ o.accountId = accountId ∧ o.certificateId = some id)

section Changes

variable {st st' : AcmeStore} {A : String}

theorem not_changes_self : ¬st.Changes st A := by
  intro h
  rcases h with h | ⟨_, h, _⟩ | ⟨_, h, _⟩ | ⟨_, h, _⟩ | ⟨_, _, h, h', _⟩ | ⟨_, h, h', _⟩
  · exact h rfl
  · exact h rfl
  · exact h rfl
  · exact h rfl
  · exact h' h
  · exact h' h

theorem changes_iff_of_kept (haccounts : st'.accounts = st.accounts)
    (hkept : ∀ id row, st.store.certificates.get? id = some row →
      st'.store.certificates.get? id = some row) :
    st.Changes st' A ↔
      (∃ id, st.orders.find? id ≠ st'.orders.find? id ∧
        (st.orderOwner id = some A ∨ st'.orderOwner id = some A)) ∨
      (∃ id, st.authorizations.find? id ≠ st'.authorizations.find? id ∧
        (st.authorizationOwner id = some A ∨ st'.authorizationOwner id = some A)) ∨
      (∃ id, st.challenges.find? id ≠ st'.challenges.find? id ∧
        (st.challengeOwner id = some A ∨ st'.challengeOwner id = some A)) := by
  constructor
  · intro h
    rcases h with h | h | h | h | ⟨id, row, hrow, hne, _⟩ | ⟨id, _, _, o, ho, hnew, rfl, _⟩
    · exact absurd (by rw [haccounts]) h
    · exact .inl h
    · exact .inr (.inl h)
    · exact .inr (.inr h)
    · exact absurd (hkept id row hrow) hne
    · have hfind : st'.orders.find? o.orderId = some o := Registry.find?_of_mem ho
      refine .inl ⟨o.orderId, fun heq => ?_, .inr ?_⟩
      · exact hnew (Registry.mem_of_find? (heq.trans hfind))
      · simp [orderOwner, hfind]
  · intro h
    rcases h with h | h | h
    · exact .inr (.inl h)
    · exact .inr (.inr (.inl h))
    · exact .inr (.inr (.inr (.inl h)))

theorem changes_setAccount_iff {accountId : String} {f : AcmeAccount → AcmeAccount}
    {hf : ∀ r, (f r).accountId = r.accountId} {account : AcmeAccount}
    (haccount : st.accounts.find? accountId = some account) :
    st.Changes (st.setAccount accountId f hf) A ↔ A = accountId ∧ f account ≠ account := by
  constructor
  · intro h
    rcases h with h | ⟨_, h, _⟩ | ⟨_, h, _⟩ | ⟨_, h, _⟩ | ⟨_, _, h, h', _⟩ | ⟨_, h, h', _⟩
    · have hA : A = accountId := by
        by_contra hne
        exact h (Registry.find?_modify_of_ne f hf hne).symm
      subst hA
      refine ⟨rfl, fun heq => h ?_⟩
      rw [find?_setAccount haccount, heq, haccount]
    · exact absurd rfl h
    · exact absurd rfl h
    · exact absurd rfl h
    · exact absurd h h'
    · exact absurd h h'
  · intro ⟨hA, hne⟩
    subst hA
    refine .inl fun heq => hne ?_
    rw [find?_setAccount haccount, haccount] at heq
    exact (Option.some.inj heq).symm

/-- A challenge and its authorization are replaced by rows with the same references, and the
order that they lead to is changed. -/
structure ChainChanged (st st' : AcmeStore) (c c' : AcmeChallenge) (a a' : AcmeAuthorization)
    (f : AcmeOrder → AcmeOrder) : Prop where
  accounts : st'.accounts = st.accounts
  store : st'.store = st.store
  challenge : st.challenges.find? c.challengeId = some c
  authorization : st.authorizations.find? c.authorizationId = some a
  challenges : ∀ id, st'.challenges.find? id =
    if id = c.challengeId then some c' else st.challenges.find? id
  authorizations : ∀ id, st'.authorizations.find? id =
    if id = c.authorizationId then some a' else st.authorizations.find? id
  orders : ∀ id, st'.orders.find? id =
    if id = a.orderId then (st.orders.find? id).map f else st.orders.find? id
  challengeReference : c'.authorizationId = c.authorizationId
  authorizationReference : a'.orderId = a.orderId
  orderReference : ∀ o, (f o).accountId = o.accountId

namespace ChainChanged

variable {c c' : AcmeChallenge} {a a' : AcmeAuthorization} {f : AcmeOrder → AcmeOrder}

theorem orderOwner_eq (h : ChainChanged st st' c c' a a' f) (id : String) :
    st'.orderOwner id = st.orderOwner id := by
  simp only [orderOwner, h.orders]
  split_ifs with hid
  · rw [Option.map_map]
    exact congrArg (Option.map · _) (funext h.orderReference)
  · rfl

theorem authorizationOwner_eq (h : ChainChanged st st' c c' a a' f) (id : String) :
    st'.authorizationOwner id = st.authorizationOwner id := by
  simp only [authorizationOwner, h.authorizations, h.orderOwner_eq]
  split_ifs with hid
  · simp [hid, h.authorization, h.authorizationReference]
  · rfl

theorem challengeOwner_eq (h : ChainChanged st st' c c' a a' f) (id : String) :
    st'.challengeOwner id = st.challengeOwner id := by
  simp only [challengeOwner, h.challenges, h.authorizationOwner_eq]
  split_ifs with hid
  · simp [hid, h.challenge, h.challengeReference]
  · rfl

theorem changes_iff (h : ChainChanged st st' c c' a a' f) :
    st.Changes st' A ↔ ∃ o, st.orders.find? a.orderId = some o ∧ o.accountId = A ∧
      (c' ≠ c ∨ a' ≠ a ∨ f o ≠ o) := by
  have haOwner : st.authorizationOwner c.authorizationId = st.orderOwner a.orderId := by
    simp [authorizationOwner, h.authorization]
  have hcOwner : st.challengeOwner c.challengeId = st.orderOwner a.orderId := by
    simp [challengeOwner, h.challenge, haOwner]
  rw [changes_iff_of_kept h.accounts fun _ _ hrow => h.store ▸ hrow]
  simp only [h.orderOwner_eq, h.authorizationOwner_eq, h.challengeOwner_eq, or_self]
  rw [Registry.exists_find?_ne_iff h.orders,
    Registry.exists_find?_ne_iff_of_some h.authorization h.authorizations,
    Registry.exists_find?_ne_iff_of_some h.challenge h.challenges, haOwner, hcOwner]
  cases ho : st.orders.find? a.orderId with
  | none => simp [orderOwner, ho]
  | some o =>
    simp only [orderOwner, ho, Option.map_some, Option.some.injEq, exists_eq_left']
    tauto

end ChainChanged

theorem changes_order_iff {o o' : AcmeOrder} (haccounts : st'.accounts = st.accounts)
    (hauths : st'.authorizations = st.authorizations)
    (hchallenges : st'.challenges = st.challenges)
    (hkept : ∀ id row, st.store.certificates.get? id = some row →
      st'.store.certificates.get? id = some row)
    (ho : st.orders.find? o.orderId = some o)
    (ho' : ∀ id, st'.orders.find? id = if id = o.orderId then some o' else st.orders.find? id)
    (hoA : o'.accountId = o.accountId) (hne : o' ≠ o) :
    st.Changes st' A ↔ o.accountId = A := by
  have horders : ∀ id, st'.orderOwner id = st.orderOwner id := by
    intro id
    simp only [orderOwner, ho']
    split_ifs with h
    · simp [h, ho, hoA]
    · rfl
  have hoOwner : st.orderOwner o.orderId = some o.accountId := by simp [orderOwner, ho]
  rw [changes_iff_of_kept haccounts hkept]
  simp only [horders, or_self, hauths, hchallenges, ne_eq, not_true_eq_false, false_and,
    exists_false, or_false]
  rw [Registry.exists_find?_ne_iff_of_some ho ho', hoOwner, Option.some.injEq]
  exact and_iff_right hne

end Changes

end AcmeStore

section Handlers

variable {st : AcmeStore} {A : String} {w : Surroundings}

/-- The message is for this address and has a good nonce. If it brings a key, that key signed
it; if it names an account instead, nothing has to have signed it. -/
structure Accepted [JoseLibrary] (st : AcmeStore) (jws : Jws) (url : String) (now : Time)
    (v : Verified) : Prop where
  header : readHeader jws = .ok v.header
  url : v.header.url = some url
  nonce : ∃ token nonce, present v.header.nonce = some token ∧
    st.nonces.find? token = some nonce ∧ nonce.used = false ∧ now < nonce.expiresAt
  names : v.header.jwk.isSome ∨ (present v.header.kid).isSome
  payload : readPayload jws = .ok v.payload
  jwk : v.jwk = v.header.jwk
  signed : ∀ key, v.jwk = some key → verifySignature key v.header jws = .ok ()

theorem checkHeader_eq_ok {header : ProtectedHeader} {url token : String} :
    checkHeader header url = .ok token ↔
      header.url = some url ∧ present header.nonce = some token := by
  unfold checkHeader
  rw [bind_eq_ok]
  simp [ensure_eq_ok, orThrow_eq_ok]

theorem verifyContents_eq_ok [JoseLibrary] {jws : Jws} {header : ProtectedHeader} {p : Payload}
    {jwk : Option Jwk} :
    verifyContents jws header none = .ok (p, jwk) ↔
      (header.jwk.isSome ∨ (present header.kid).isSome) ∧ readPayload jws = .ok p ∧
        jwk = header.jwk ∧ ∀ key, jwk = some key → verifySignature key header jws = .ok () := by
  unfold verifyContents
  rw [bind_eq_ok]
  simp only [ensure_eq_ok, bind_eq_ok, Option.or_none, exists_and_left, exists_const]
  refine and_congr_right fun _ => ?_
  cases header.jwk with
  | none =>
    constructor
    · intro h
      obtain ⟨_, hpayload, heq⟩ := h
      cases heq
      exact ⟨hpayload, rfl, fun _ h => by cases h⟩
    · intro h
      obtain ⟨hpayload, hjwk, _⟩ := h
      exact ⟨p, hpayload, by rw [hjwk]; rfl⟩
  | some key =>
    constructor
    · intro h
      obtain ⟨_, hpayload, heq⟩ := h
      obtain ⟨_, hsigned, heq⟩ := bind_eq_ok.mp heq
      cases heq
      refine ⟨hpayload, rfl, fun key' h => ?_⟩
      cases h
      exact hsigned
    · intro h
      obtain ⟨hpayload, hjwk, hsigned⟩ := h
      exact ⟨p, hpayload, bind_eq_ok.mpr ⟨(), hsigned key hjwk, by rw [hjwk]; rfl⟩⟩

theorem validateNonce_cases (st : AcmeStore) (token : String) (now : Time) :
    (∃ nonces, validateNonce st token now = (true, { st with nonces })) ∧
      (∃ nonce, st.nonces.find? token = some nonce ∧ nonce.used = false ∧ now < nonce.expiresAt) ∨
    validateNonce st token now = (false, st) ∧
      ∀ nonce, st.nonces.find? token = some nonce → ¬(nonce.used = false ∧ now < nonce.expiresAt) := by
  unfold validateNonce
  cases hfind : st.nonces.find? token with
  | none => exact .inr ⟨rfl, fun _ h => nomatch h⟩
  | some nonce =>
    dsimp only
    split_ifs with hgood
    · exact .inl ⟨⟨_, rfl⟩, nonce, rfl, hgood⟩
    · refine .inr ⟨rfl, fun nonce' h => ?_⟩
      cases h
      exact hgood

theorem verifyJws_cases [JoseLibrary] (st : AcmeStore) (jws : Jws) (url : String) (now : Time) :
    (∃ e nonces, verifyJws st jws url none now = (.error e, { st with nonces }) ∧
      ∀ v, ¬Accepted st jws url now v) ∨
    ∃ v nonces, verifyJws st jws url none now = (.ok v, { st with nonces }) ∧
      ∀ v', Accepted st jws url now v' ↔ v' = v := by
  unfold verifyJws
  cases hheader : readHeader jws with
  | error e =>
    refine .inl ⟨e, st.nonces, rfl, fun v h => ?_⟩
    cases hheader.symm.trans h.header
  | ok header =>
    have hheader' : ∀ {v}, Accepted st jws url now v → v.header = header := by
      intro v h
      cases hheader.symm.trans h.header
      rfl
    dsimp only
    cases hcheck : checkHeader header url with
    | error e =>
      refine .inl ⟨e, st.nonces, rfl, fun v h => ?_⟩
      obtain ⟨token, _, htoken, _⟩ := h.nonce
      have hok := checkHeader_eq_ok.mpr ⟨h.url, htoken⟩
      cases (hheader' h ▸ hok).symm.trans hcheck
    | ok token =>
      obtain ⟨hurl, htoken⟩ := checkHeader_eq_ok.mp hcheck
      have htoken' : ∀ {v token'}, Accepted st jws url now v →
          present v.header.nonce = some token' → token' = token := by
        intro v token' h htoken'
        exact Option.some.inj (htoken'.symm.trans (hheader' h ▸ htoken))
      dsimp only
      rcases validateNonce_cases st token now with ⟨⟨nonces, hvalid⟩, hgood⟩ | ⟨hvalid, hbad⟩
      · rw [hvalid]
        dsimp only
        cases hcontents : verifyContents jws header none with
        | error e =>
          refine .inl ⟨e, nonces, rfl, fun v h => ?_⟩
          have hok := verifyContents_eq_ok.mpr ⟨h.names, h.payload, h.jwk, h.signed⟩
          cases (hheader' h ▸ hok).symm.trans hcontents
        | ok result =>
          obtain ⟨payload, jwk⟩ := result
          obtain ⟨hnames, hpayload, hjwk, hsigned⟩ := verifyContents_eq_ok.mp hcontents
          refine .inr ⟨_, nonces, rfl, fun v => ⟨fun h => ?_, fun h => ?_⟩⟩
          · have hok := verifyContents_eq_ok.mpr ⟨h.names, h.payload, h.jwk, h.signed⟩
            rw [hheader' h, hcontents] at hok
            cases hok
            rw [← hheader' h]
          · subst h
            exact ⟨hheader, hurl, ⟨token, hgood.choose, htoken, hgood.choose_spec⟩, hnames,
              hpayload, hjwk, hsigned⟩
      · rw [hvalid]
        refine .inl ⟨_, st.nonces, rfl, fun v h => ?_⟩
        obtain ⟨token', nonce, htoken'', hfind, hgood⟩ := h.nonce
        exact hbad nonce (htoken' h htoken'' ▸ hfind) hgood

def Passes [JoseLibrary] (st : AcmeStore) (body : Option Jws) (url : String) (now : Time)
    (P : Verified → Prop) : Prop :=
  ∃ jws v, body = some jws ∧ Accepted st jws url now v ∧ P v

theorem changes_withVerified_iff [JoseLibrary] {body : Option Jws} {url : String} {now : Time}
    {handle : AcmeStore → Verified → AcmeResponse × AcmeStore} {P : Verified → Prop}
    (h : ∀ nonces v, AcmeStore.Changes { st with nonces } (handle { st with nonces } v).2 A ↔ P v) :
    st.Changes (withVerified st body url now handle).2 A ↔ Passes st body url now P := by
  cases body with
  | none =>
    constructor
    · exact fun hchange => absurd hchange AcmeStore.not_changes_self
    · exact fun ⟨_, _, hbody, _⟩ => nomatch hbody
  | some jws =>
    unfold withVerified
    dsimp only
    rcases verifyJws_cases st jws url now with ⟨e, nonces, hverify, hnone⟩ | ⟨v, nonces, hverify, hv⟩
    · rw [hverify]
      constructor
      · exact fun hchange => absurd hchange AcmeStore.not_changes_self
      · intro ⟨_, v, hbody, haccepted, _⟩
        cases hbody
        exact absurd haccepted (hnone v)
    · rw [hverify]
      constructor
      · exact fun hchange => ⟨jws, v, rfl, (hv v).mpr rfl, (h nonces v).mp hchange⟩
      · intro ⟨_, v', hbody, haccepted, hP⟩
        cases hbody
        cases (hv v').mp haccepted
        exact (h nonces v).mpr hP

end Handlers

section Accounts

variable {st : AcmeStore} {A : String} {w : Surroundings}

def AccountInfoWrites (accountId : String) (st : AcmeStore) (v : Verified) (A : String) : Prop :=
  ∃ account, st.accounts.find? accountId = some account ∧ A = accountId ∧
    updatedAccount v.payload account ≠ account

theorem changes_accountInfo_iff [JoseLibrary] {accountId : String} {body : Option Jws} :
    st.Changes (accountInfo st accountId body w).2 A ↔
      Passes st body (st.baseUrl ++ "/acme/acct/" ++ accountId) w.now
        (AccountInfoWrites accountId st · A) := by
  unfold accountInfo
  cases haccount : getAccountByKid st accountId with
  | none =>
    constructor
    · exact fun h => absurd h AcmeStore.not_changes_self
    · intro ⟨_, _, _, _, account, hfind, _⟩
      cases haccount.symm.trans hfind
  | some account =>
    cases body with
    | none =>
      constructor
      · exact fun h => absurd h AcmeStore.not_changes_self
      · exact fun ⟨_, _, hbody, _⟩ => nomatch hbody
    | some jws =>
      refine changes_withVerified_iff fun nonces v => ?_
      refine (AcmeStore.changes_setAccount_iff haccount).trans ?_
      constructor
      · exact fun ⟨hA, hne⟩ => ⟨account, haccount, hA, hne⟩
      · intro ⟨account', hfind, hA, hne⟩
        cases haccount.symm.trans hfind
        exact ⟨hA, hne⟩

/-- The header brings a key that no other account has, and the payload names an account by its
present key. -/
def KeyChangeWrites [Sha256] (st : AcmeStore) (v : Verified) (A : String) : Prop :=
  ∃ account jwk thumbprint, present (lastSegment v.payload.account) = some A ∧
    st.accounts.find? A = some account ∧ v.payload.oldKey = some account.jwk ∧
    v.jwk = some jwk ∧ computeJwkThumbprint jwk = some thumbprint ∧
    (st.accounts.first fun a => a.jwkThumbprint = thumbprint && a.accountId ≠ A) = none ∧
    { account with jwk, jwkThumbprint := thumbprint } ≠ account

theorem changes_keyChange_iff [Sha256] {v : Verified} :
    st.Changes (keyChangeVerified st v).2 A ↔ KeyChangeWrites st v A := by
  constructor
  · intro h
    unfold keyChangeVerified at h
    split_ifs at h with hempty
    · exact absurd h AcmeStore.not_changes_self
    · split at h
      · exact absurd h AcmeStore.not_changes_self
      next accountId hid =>
        split at h
        · exact absurd h AcmeStore.not_changes_self
        next account haccount =>
          split_ifs at h with hold
          · exact absurd h AcmeStore.not_changes_self
          · split at h
            · exact absurd h AcmeStore.not_changes_self
            next jwk hjwk =>
              split at h
              · exact absurd h AcmeStore.not_changes_self
              next thumbprint hthumbprint =>
                split_ifs at h with htaken
                · exact absurd h AcmeStore.not_changes_self
                · obtain ⟨hA, hne⟩ := (AcmeStore.changes_setAccount_iff haccount).mp h
                  subst hA
                  exact ⟨account, jwk, thumbprint, hid, haccount, not_not.mp hold, hjwk,
                    hthumbprint, Option.not_isSome_iff_eq_none.mp htaken, hne⟩
  · intro ⟨account, jwk, thumbprint, hid, haccount, hold, hjwk, hthumbprint, hfree, hne⟩
    have hempty : v.payload.isEmpty = false := by
      by_contra h
      have hp : v.payload = {} := by simpa [Payload.isEmpty] using h
      rw [hp] at hold
      cases hold
    have hresult : (keyChangeVerified st v).2 = st.setAccount A fun a =>
        { a with jwk, jwkThumbprint := thumbprint } := by
      unfold keyChangeVerified
      rw [if_neg (by simp [hempty])]
      simp only [hid, getAccountByKid, haccount]
      rw [if_neg (not_not.mpr hold)]
      simp only [hjwk, hthumbprint, hfree]
      rfl
    rw [hresult]
    exact (AcmeStore.changes_setAccount_iff haccount).mpr ⟨rfl, hne⟩

theorem snd_revokeVerified {v : Verified} : (revokeVerified w st v).2 = st := by
  unfold revokeVerified
  split
  · rfl
  · split <;> rfl

end Accounts

section Orders

variable {st st' st'' : AcmeStore} {A B orderId : String} {w : Surroundings}

/-- The rows that making an order adds: its own, and authorizations and challenges of it. -/
structure Grown (orderId A : String) (st st' : AcmeStore) : Prop where
  accounts : st'.accounts = st.accounts
  store : st'.store = st.store
  order : ∃ o, st'.orders.find? orderId = some o ∧ o.accountId = A
  orders : ∀ id, id ≠ orderId → st'.orders.find? id = st.orders.find? id
  authorizations : ∀ id, st'.authorizations.find? id = st.authorizations.find? id ∨
    ∃ a, st.authorizations.find? id = none ∧ st'.authorizations.find? id = some a ∧
      a.orderId = orderId
  challenges : ∀ id, st'.challenges.find? id = st.challenges.find? id ∨
    ∃ c a, st.challenges.find? id = none ∧ st'.challenges.find? id = some c ∧
      st'.authorizations.find? c.authorizationId = some a ∧ a.orderId = orderId

theorem Grown.changes_iff (hfresh : st.orders.find? orderId = none) (h : Grown orderId A st st') :
    st.Changes st' B ↔ B = A := by
  obtain ⟨o, ho, hoA⟩ := h.order
  have howner : st'.orderOwner orderId = some A := by simp [AcmeStore.orderOwner, ho, hoA]
  rw [AcmeStore.changes_iff_of_kept h.accounts fun _ _ hrow => h.store ▸ hrow]
  constructor
  · intro hchange
    rcases hchange with ⟨id, hne, hB⟩ | ⟨id, hne, hB⟩ | ⟨id, hne, hB⟩
    · have hid : id = orderId := by
        by_contra hid
        exact hne (h.orders id hid).symm
      subst hid
      rcases hB with hB | hB
      · simp [AcmeStore.orderOwner, hfresh] at hB
      · exact Option.some.inj (hB.symm.trans howner)
    · rcases h.authorizations id with heq | ⟨a, hnone, hsome, ha⟩
      · exact absurd heq.symm hne
      · rcases hB with hB | hB
        · simp [AcmeStore.authorizationOwner, hnone] at hB
        · simp only [AcmeStore.authorizationOwner, hsome, Option.bind_some, ha, howner] at hB
          exact (Option.some.inj hB).symm
    · rcases h.challenges id with heq | ⟨c, a, hnone, hsome, hauth, ha⟩
      · exact absurd heq.symm hne
      · rcases hB with hB | hB
        · simp [AcmeStore.challengeOwner, hnone] at hB
        · simp only [AcmeStore.challengeOwner, AcmeStore.authorizationOwner, hsome,
            Option.bind_some, hauth, ha, howner] at hB
          exact (Option.some.inj hB).symm
  · intro hB
    subst hB
    refine .inl ⟨orderId, ?_, .inr howner⟩
    rw [hfresh, ho]
    exact fun heq => nomatch heq

theorem Grown.authorization_none (h : Grown orderId A st st') {id : String}
    (hnone : st'.authorizations.find? id = none) : st.authorizations.find? id = none := by
  rcases h.authorizations id with heq | ⟨_, hnone', _⟩
  · exact heq ▸ hnone
  · exact hnone'

theorem Grown.challenge_none (h : Grown orderId A st st') {id : String}
    (hnone : st'.challenges.find? id = none) : st.challenges.find? id = none := by
  rcases h.challenges id with heq | ⟨_, _, hnone', _⟩
  · exact heq ▸ hnone
  · exact hnone'

theorem Grown.createAuthorization {identifier : Identifier} {d : AuthorizationDraw} {now : Time}
    (h : Grown orderId A st st')
    (hcreate : createAuthorization st' orderId identifier A d now = some st'') :
    Grown orderId A st st'' := by
  obtain ⟨auths, challenges, challenges', hauth, hhttp, hdns, rfl⟩ :=
    createAuthorization_eq_some.mp hcreate
  refine ⟨h.accounts, h.store, h.order, h.orders, ?_, ?_⟩
  · intro id
    dsimp only
    rw [Registry.find?_insert hauth]
    split_ifs with hid
    · refine .inr ⟨_, ?_, rfl, newAuthorization_orderId⟩
      exact h.authorization_none (hid ▸ Registry.find?_insert_fresh hauth)
    · exact h.authorizations id
  · intro id
    dsimp only
    rw [Registry.find?_insert hdns, Registry.find?_insert hhttp]
    split_ifs with hid hid'
    · have hnone := Registry.find?_insert_fresh hdns
      rw [← hid, Registry.find?_insert hhttp] at hnone
      split_ifs at hnone
      exact .inr ⟨_, _, h.challenge_none hnone, rfl, Registry.find?_insert_self hauth,
        newAuthorization_orderId⟩
    · have hnone := Registry.find?_insert_fresh hhttp
      exact .inr ⟨_, _, h.challenge_none (hid' ▸ hnone), rfl, Registry.find?_insert_self hauth,
        newAuthorization_orderId⟩
    · rcases h.challenges id with heq | ⟨c, a, hnone, hsome, ha, horder⟩
      · exact .inl heq
      · exact .inr ⟨c, a, hnone, hsome, Registry.find?_insert_of_some hauth ha, horder⟩

theorem Grown.finishOrder (h : Grown orderId A st st') :
    Grown orderId A st (finishOrder st' orderId) := by
  rcases finishOrder_cases st' orderId with heq | heq
  · rw [heq]
    exact h
  · rw [heq]
    obtain ⟨o, ho, hoA⟩ := h.order
    refine ⟨h.accounts, h.store, ⟨_, AcmeStore.find?_setOrder ho, hoA⟩, ?_, h.authorizations,
      h.challenges⟩
    intro id hid
    exact (AcmeStore.find?_setOrder_of_ne hid).trans (h.orders id hid)

/-- No drawn text turns out to be taken before the first authorization is committed, or at all. -/
def Persists (orderId accountId : String) (draw : ℕ → AuthorizationDraw) (now : Time) :
    ℕ → AcmeStore → List Identifier → Prop
  | _, _, [] => True
  | i, st, identifier :: rest =>
    match AcmeService.createAuthorization st orderId identifier accountId (draw i) now with
    | none => False
    | some st' => reusableAuthorization st accountId identifier now = none ∨
      Persists orderId accountId draw now (i + 1) st' rest

theorem createAuthorizations_grown (draw : ℕ → AuthorizationDraw) (now : Time)
    (identifiers : List Identifier) {i : ℕ} {s : Session} (hworking : Grown orderId A st s.working)
    (hcommitted : s.committed = st ∨ Grown orderId A st s.committed) :
    match createAuthorizations orderId A draw now i identifiers s with
    | .ok s' => Grown orderId A st s'.working ∧ Persists orderId A draw now i s.working identifiers
    | .error st' =>
      (Grown orderId A st st' ∧
        (Grown orderId A st s.committed ∨ Persists orderId A draw now i s.working identifiers)) ∨
      st' = st ∧ s.committed = st ∧ ¬Persists orderId A draw now i s.working identifiers := by
  induction identifiers generalizing i s with
  | nil => exact ⟨hworking, trivial⟩
  | cons identifier rest ih =>
    unfold createAuthorizations Persists
    cases hcreate : AcmeService.createAuthorization s.working orderId identifier A (draw i) now with
    | none =>
      dsimp only
      rcases hcommitted with heq | hgrown
      · exact .inr ⟨heq, heq, not_false⟩
      · exact .inl ⟨hgrown, .inl hgrown⟩
    | some working =>
      have hworking' := hworking.createAuthorization hcreate
      dsimp only
      cases hreuse : reusableAuthorization s.working A identifier now with
      | none =>
        have hrest := ih (i := i + 1) (s := ⟨working, working⟩) hworking' (.inr hworking')
        simp only [Option.isSome_none, Bool.false_eq_true, if_false] at hrest ⊢
        generalize createAuthorizations orderId A draw now (i + 1) rest ⟨working, working⟩ =
          result at hrest ⊢
        cases result with
        | ok s' => exact ⟨hrest.1, .inl trivial⟩
        | error st' =>
          rcases hrest with ⟨hgrown, _⟩ | ⟨heq, heq', _⟩
          · exact .inl ⟨hgrown, .inr (.inl trivial)⟩
          · exact .inl ⟨heq.trans heq'.symm ▸ hworking', .inr (.inl trivial)⟩
      | some valid =>
        have hrest := ih (i := i + 1) (s := ⟨s.committed, working⟩) hworking' hcommitted
        simp only [Option.isSome_some, if_true, reduceCtorEq, false_or]
        exact hrest

/-- The drawn texts let at least the order and its first pending authorization, or the order
with all its authorizations, be committed. -/
def CommitsOrder (st : AcmeStore) (orderId accountId : String) (identifiers : List Identifier)
    (notBefore notAfter : Option Time) (draw : ℕ → AuthorizationDraw) (now : Time) : Prop :=
  ∃ working, insertOrder st orderId accountId identifiers notBefore notAfter now = some working ∧
    Persists orderId accountId draw now 0 working identifiers

theorem changes_createOrder_iff {identifiers : List Identifier} {notBefore notAfter : Option Time}
    {draw : ℕ → AuthorizationDraw} {now : Time} :
    st.Changes (createOrder st orderId A identifiers notBefore notAfter draw now).2 B ↔
      B = A ∧ CommitsOrder st orderId A identifiers notBefore notAfter draw now := by
  unfold createOrder CommitsOrder
  cases hinsert : insertOrder st orderId A identifiers notBefore notAfter now with
  | none =>
    constructor
    · exact fun h => absurd h AcmeStore.not_changes_self
    · exact fun ⟨_, _, h, _⟩ => nomatch h
  | some working =>
    obtain ⟨orders, horders, rfl⟩ := insertOrder_eq_some.mp hinsert
    have hfresh : st.orders.find? orderId = none := Registry.find?_insert_fresh horders
    have hworking : Grown orderId A st { st with orders } :=
      ⟨rfl, rfl, ⟨_, Registry.find?_insert_self horders, rfl⟩,
        fun id hid => (Registry.find?_insert horders id).trans (if_neg hid),
        fun _ => .inl rfl, fun _ => .inl rfl⟩
    have hresult := createAuthorizations_grown draw now identifiers (i := 0)
      (s := ⟨st, { st with orders }⟩) hworking (.inl rfl)
    have hself : ¬Grown orderId A st st := by
      intro h
      obtain ⟨o, ho, _⟩ := h.order
      rw [hfresh] at ho
      cases ho
    simp only [Option.some.injEq, exists_eq_left']
    generalize createAuthorizations orderId A draw now 0 identifiers ⟨st, { st with orders }⟩ =
      result at hresult
    cases result with
    | ok s =>
      rw [hresult.1.finishOrder.changes_iff hfresh]
      exact (and_iff_left hresult.2).symm
    | error st' =>
      rcases hresult with ⟨hgrown, hpersists⟩ | ⟨rfl, _, hpersists⟩
      · rw [hgrown.changes_iff hfresh]
        exact (and_iff_left (hpersists.resolve_left hself)).symm
      · exact ⟨fun h => absurd h AcmeStore.not_changes_self, fun h => absurd h.2 hpersists⟩

/-- The header names an account and the payload asks for an order that can be made. -/
def NewOrderWrites (w : Surroundings) (st : AcmeStore) (v : Verified) (A : String) : Prop :=
  ∃ notBefore notAfter, present (lastSegment v.header.kid) = some A ∧
    (st.accounts.find? A).isSome ∧ v.payload.identifiers ≠ [] ∧
    readDate v.payload.notBefore = some notBefore ∧ readDate v.payload.notAfter = some notAfter ∧
    CommitsOrder st w.orderId A v.payload.identifiers notBefore notAfter w.authorization w.now

theorem snd_orderAnswer (body : AcmeStore → AcmeOrder → OrderBody) (st : AcmeStore)
    (orderId : String) (status : ℕ) : (orderAnswer body st orderId status).2 = st := by
  unfold orderAnswer
  split <;> rfl

theorem snd_createdAnswer (orderId : String) (result : Bool × AcmeStore) :
    (createdAnswer orderId result).2 = result.2 := by
  obtain ⟨_ | _, st⟩ := result
  · rfl
  · exact snd_orderAnswer newOrderBody st orderId 201

theorem changes_newOrder_iff {v : Verified} :
    st.Changes (newOrderVerified w st v).2 A ↔ NewOrderWrites w st v A := by
  unfold newOrderVerified NewOrderWrites
  cases hid : present (lastSegment v.header.kid) with
  | none =>
    constructor
    · exact fun h => absurd h AcmeStore.not_changes_self
    · exact fun ⟨_, _, h, _⟩ => nomatch h
  | some accountId =>
    dsimp only
    cases haccount : getAccountByKid st accountId with
    | none =>
      constructor
      · exact fun h => absurd h AcmeStore.not_changes_self
      · intro ⟨_, _, hA, hsome, _⟩
        cases hA
        rw [getAccountByKid] at haccount
        rw [haccount] at hsome
        cases hsome
    | some account =>
      have hname : account.accountId = accountId := Registry.name_of_find? haccount
      have hsome : (st.accounts.find? accountId).isSome := Option.isSome_of_eq_some haccount
      dsimp only
      split_ifs with hempty
      · constructor
        · exact fun h => absurd h AcmeStore.not_changes_self
        · exact fun ⟨_, _, _, _, hne, _⟩ => absurd hempty hne
      · split
        next notBefore notAfter hbefore hafter =>
          rw [snd_createdAnswer, hname, changes_createOrder_iff]
          constructor
          · intro ⟨hA, hcommits⟩
            subst hA
            exact ⟨_, _, rfl, hsome, hempty, hbefore, hafter, hcommits⟩
          · intro ⟨_, _, hA, _, _, hbefore', hafter', hcommits⟩
            cases hA
            cases hbefore.symm.trans hbefore'
            cases hafter.symm.trans hafter'
            exact ⟨rfl, hcommits⟩
        next hdates =>
          constructor
          · exact fun h => absurd h AcmeStore.not_changes_self
          · exact fun ⟨_, _, _, _, _, hbefore, hafter, _⟩ => absurd hafter (hdates _ _ hbefore)

/-- The order of the path is ready, the request matches it, and its row can be inserted. -/
def FinalizeWrites (w : Surroundings) (orderId : String) (st : AcmeStore) (v : Verified)
    (A : String) : Prop :=
  ∃ csr order domains, v.payload.csr = some (some csr) ∧
    checkFinalize st orderId (some csr) = .ok (order, csr, domains) ∧ order.accountId = A ∧
    ∀ ca, signer st.store (resolveCaForDomains st domains) = some ca →
      ca.prv = none ∨ (st.store.certificates.first fun c => c.refid = w.sign.refid) = none

theorem snd_finalizedAnswer_ok (st st' : AcmeStore) (orderId : String) (error : Option String) :
    (finalizedAnswer st orderId (.ok (error, st'))).2 = st' := by
  cases error with
  | none => exact snd_orderAnswer orderBody st' orderId 200
  | some message => rfl

theorem changes_finished_iff {order : AcmeOrder} {store : Store} {f : AcmeOrder → AcmeOrder}
    {hf : ∀ r, (f r).orderId = r.orderId} (hfind : st.orders.find? orderId = some order)
    (hready : order.status = .ready) (hstatus : (f order).status ≠ .ready)
    (haccount : (f order).accountId = order.accountId)
    (hkept : ∀ id row, st.store.certificates.get? id = some row →
      store.certificates.get? id = some row) :
    st.Changes (AcmeStore.setOrder { st with store } orderId f hf) A ↔ order.accountId = A := by
  have hname : order.orderId = orderId := Registry.name_of_find? hfind
  subst hname
  have hfind' : ∀ id, (AcmeStore.setOrder { st with store } order.orderId f hf).orders.find? id =
      if id = order.orderId then some (f order) else st.orders.find? id := by
    intro id
    split_ifs with hid
    · subst hid
      exact AcmeStore.find?_setOrder hfind
    · exact AcmeStore.find?_setOrder_of_ne hid
  refine AcmeStore.changes_order_iff rfl rfl rfl hkept hfind hfind' haccount ?_
  exact fun heq => hstatus ((congrArg AcmeOrder.status heq).trans hready)

theorem changes_finalizeOrder_iff [X509Library] {csr : Csr} {order : AcmeOrder}
    {domains : List String} {d : SignDraw}
    (hcheck : checkFinalize st orderId (some csr) = .ok (order, csr, domains)) :
    st.Changes (finalizedAnswer st orderId (AcmeService.finalizeOrder st orderId (some csr) d)).2 A ↔
      order.accountId = A ∧
        ∀ e, signCertificateWithCa st.store order csr (resolveCaForDomains st domains) d ≠
          .raised e := by
  obtain ⟨hfind, hready, _⟩ := checkFinalize_eq_ok.mp hcheck
  have hcases := signCertificateWithCa_cases st.store order csr (resolveCaForDomains st domains) d
  unfold AcmeService.finalizeOrder
  rw [hcheck]
  dsimp only
  unfold finalizeSign
  cases hsign : signCertificateWithCa st.store order csr (resolveCaForDomains st domains) d with
  | raised e =>
    constructor
    · exact fun h => absurd h AcmeStore.not_changes_self
    · exact fun h => absurd rfl (h.2 e)
  | failed message store =>
    rw [hsign] at hcases
    have hkept : ∀ id row, st.store.certificates.get? id = some row →
        store.certificates.get? id = some row := by
      intro id row hrow
      rcases hcases with rfl | hsigned
      · exact hrow
      · exact hsigned.kept id row hrow
    dsimp only
    unfold finalizeFail
    rw [snd_finalizedAnswer_ok]
    have hnot : ∀ e, SignOutcome.failed message store ≠ .raised e := fun _ h => nomatch h
    refine (changes_finished_iff hfind hready ?_ rfl hkept).trans (and_iff_left hnot).symm
    exact fun h => nomatch h
  | signed certId store =>
    rw [hsign] at hcases
    dsimp only
    unfold finalizeCommit
    rw [snd_finalizedAnswer_ok]
    have hnot : ∀ e, SignOutcome.signed certId store ≠ .raised e := fun _ h => nomatch h
    refine (changes_finished_iff hfind hready ?_ rfl hcases.2.kept).trans (and_iff_left hnot).symm
    exact fun h => nomatch h

theorem changes_finalize_iff [X509Library] {v : Verified} :
    st.Changes (finalizeVerified w orderId st v).2 A ↔ FinalizeWrites w orderId st v A := by
  unfold finalizeVerified FinalizeWrites
  split_ifs with hempty
  · constructor
    · exact fun h => absurd h AcmeStore.not_changes_self
    · intro ⟨_, _, _, hcsr, _⟩
      have hp : v.payload = {} := by simpa [Payload.isEmpty] using hempty
      rw [hp] at hcsr
      cases hcsr
  · rcases hcsr : v.payload.csr with _ | _ | csr
    · constructor
      · exact fun h => absurd h AcmeStore.not_changes_self
      · exact fun ⟨_, _, _, h, _⟩ => nomatch h
    · constructor
      · exact fun h => absurd h AcmeStore.not_changes_self
      · exact fun ⟨_, _, _, h, _⟩ => nomatch h
    · dsimp only
      cases hcheck : checkFinalize st orderId (some csr) with
      | error stop =>
        constructor
        · intro h
          unfold AcmeService.finalizeOrder at h
          rw [hcheck] at h
          cases stop with
          | refused message => exact absurd h AcmeStore.not_changes_self
          | raised e => exact absurd h AcmeStore.not_changes_self
        · intro ⟨_, _, _, h, h', _⟩
          cases h
          rw [hcheck] at h'
          cases h'
      | ok result =>
        obtain ⟨order, csr', domains⟩ := result
        obtain ⟨_, _, hcsr', _⟩ := checkFinalize_eq_ok.mp hcheck
        cases hcsr'
        rw [changes_finalizeOrder_iff hcheck, signCertificateWithCa_ne_raised_iff]
        constructor
        · exact fun ⟨hA, hfree⟩ => ⟨csr, order, domains, rfl, hcheck, hA, hfree⟩
        · intro ⟨_, _, _, h, h', hA, hfree⟩
          cases h
          cases hcheck.symm.trans h'
          exact ⟨hA, hfree⟩

end Orders

section Challenges

variable {st : AcmeStore} {A : String} {w : Surroundings} {challenge : AcmeChallenge}

def ChallengeUpdates (st : AcmeStore) (challenge : AcmeChallenge) (auth : AcmeAuthorization)
    (order : AcmeOrder) (now : Time) : Except Problem Unit → Prop
  | .error problem => failedChallenge problem challenge ≠ challenge
  | .ok () => validatedChallenge now challenge ≠ challenge ∨ validAuthorization auth ≠ auth ∨
      LastMissing st auth ∧ order.status ≠ .ready

section Chain

variable {auth : AcmeAuthorization} {now : Time} {problem : Problem}

theorem find?_authorizationOf (hauth : st.authorizationOf challenge = some auth) (id : String) :
    st.authorizations.find? id =
      if id = challenge.authorizationId then some auth else st.authorizations.find? id := by
  split_ifs with hid
  · exact hid ▸ hauth
  · rfl

theorem find?_unchanged (orderId id : String) : st.orders.find? id =
    if id = orderId then (st.orders.find? id).map fun o => o else st.orders.find? id := by
  rw [Option.map_id', ite_self]

theorem find?_withValid_validated (hauth : st.authorizationOf challenge = some auth) (id : String) :
    (withValid (withValidated st challenge now) auth).authorizations.find? id =
      if id = challenge.authorizationId then some (validAuthorization auth)
      else st.authorizations.find? id := by
  have hname : auth.authorizationId = challenge.authorizationId := Registry.name_of_find? hauth
  exact hname ▸ find?_withValid (hname ▸ hauth) id

theorem chainChanged_of_error
    (hfind : st.challenges.find? challenge.challengeId = some challenge)
    (hauth : st.authorizationOf challenge = some auth) :
    AcmeStore.ChainChanged st (withFailed st challenge problem) challenge
      (failedChallenge problem challenge) auth auth fun o => o where
  accounts := rfl
  store := rfl
  challenge := hfind
  authorization := hauth
  challenges := find?_withFailed hfind
  authorizations := find?_authorizationOf hauth
  orders := find?_unchanged auth.orderId
  challengeReference := rfl
  authorizationReference := rfl
  orderReference _ := rfl

theorem chainChanged_of_orderless
    (hfind : st.challenges.find? challenge.challengeId = some challenge)
    (hauth : st.authorizationOf challenge = some auth) :
    AcmeStore.ChainChanged st
      (withFailed (withValid (withValidated st challenge now) auth) challenge problem) challenge
      (failedChallenge problem (validatedChallenge now challenge)) auth (validAuthorization auth)
      fun o => o where
  accounts := rfl
  store := rfl
  challenge := hfind
  authorization := hauth
  challenges id := by
    have hthere : (withValid (withValidated st challenge now) auth).challenges.find?
        challenge.challengeId = some (validatedChallenge now challenge) :=
      (find?_withValidated hfind challenge.challengeId).trans (if_pos rfl)
    rw [find?_withFailed hthere id]
    split_ifs with hid
    · rfl
    · exact (find?_withValidated hfind id).trans (if_neg hid)
  authorizations := find?_withValid_validated hauth
  orders := find?_unchanged auth.orderId
  challengeReference := rfl
  authorizationReference := rfl
  orderReference _ := rfl

/-- Otherwise challenge and authorization become valid, and with the last one missing the order
becomes ready. -/
theorem chainChanged_of_ok {orderId : String}
    (hfind : st.challenges.find? challenge.challengeId = some challenge)
    (hauth : st.authorizationOf challenge = some auth) (horder : auth.orderId = orderId) :
    AcmeStore.ChainChanged st
      (readyIfAllValid (withValid (withValidated st challenge now) auth) orderId) challenge
      (validatedChallenge now challenge) auth (validAuthorization auth)
      fun o => if LastMissing st auth then { o with status := .ready } else o := by
  obtain ⟨hstore, haccounts, hauths, hchallenges⟩ :=
    readyIfAllValid_kept (withValid (withValidated st challenge now) auth) orderId
  refine ⟨haccounts, hstore, hfind, hauth, fun id => ?_, fun id => ?_, fun id => ?_, rfl, rfl,
    fun o => by split_ifs <;> rfl⟩
  · rw [hchallenges]
    exact find?_withValidated hfind id
  · rw [hauths]
    exact find?_withValid_validated hauth id
  · -- validating a challenge leaves the orders and authorizations as they are
    exact find?_readyIfAllValid horder id

end Chain

theorem changes_validateChallenge (check : String → Except Problem Unit) (failureType : String)
    (now : Time) {auth : AcmeAuthorization}
    (hfind : st.challenges.find? challenge.challengeId = some challenge)
    (hauth : st.authorizationOf challenge = some auth) :
    ∃ st', validateChallenge check failureType st challenge now = .ok st' ∧
      (st.Changes st' A ↔ ∃ order, st.orderOf auth = some order ∧ order.accountId = A ∧
        ChallengeUpdates st challenge auth order now (check (auth.identifier.value.getD ""))) := by
  cases hcheck : check (auth.identifier.value.getD "") with
  | error problem =>
    refine ⟨_, validateChallenge_of_error hauth hcheck, ?_⟩
    rw [(chainChanged_of_error hfind hauth).changes_iff]
    refine exists_congr fun order => and_congr_right fun _ => and_congr_right fun _ => ?_
    simp [ChallengeUpdates]
  | ok _ =>
    have hok : validateChallenge check failureType st challenge now = _ :=
      validateChallenge_of_ok hfind hauth hcheck
    cases horder : st.orderOf auth with
    | none =>
      rw [horder] at hok
      refine ⟨_, hok, ?_⟩
      rw [(chainChanged_of_orderless hfind hauth).changes_iff]
      constructor
      · intro ⟨order, hsome, _⟩
        cases horder.symm.trans hsome
      · exact fun ⟨_, h, _⟩ => nomatch h
    | some order =>
      rw [horder] at hok
      refine ⟨_, hok, ?_⟩
      have hoid : auth.orderId = order.orderId := (Registry.name_of_find? horder).symm
      rw [(chainChanged_of_ok hfind hauth hoid).changes_iff]
      refine exists_congr fun o => and_congr (by rw [← horder]; rfl) ?_
      refine and_congr_right fun _ => or_congr Iff.rfl (or_congr Iff.rfl ?_)
      split_ifs with hlast
      · refine ⟨fun hne => ⟨hlast, fun heq => hne ?_⟩, fun h heq => h.2 ?_⟩
        · rw [← heq]
        · exact congrArg AcmeOrder.status heq.symm
      · exact ⟨fun h => absurd rfl h, fun h => absurd h.1 hlast⟩

/-- The header names some account, with whose key the challenge is checked; what this writes is
written for the account that the challenge belongs to. -/
def RespondWrites [Sha256] (w : Surroundings) (challenge : AcmeChallenge) (st : AcmeStore)
    (v : Verified) (A : String) : Prop :=
  ∃ account auth order result, (lastSegment v.header.kid).bind (getAccountByKid st) = some account ∧
    st.authorizationOf challenge = some auth ∧ st.orderOf auth = some order ∧ order.accountId = A ∧
    challengeResult w challenge account auth = some result ∧
    ChallengeUpdates st challenge auth order w.now result

theorem snd_challengeAnswer (st : AcmeStore) (challengeId : String) :
    (challengeAnswer st challengeId).2 = st := by
  unfold challengeAnswer
  split <;> rfl

theorem changes_respond_of_check [Sha256] {v : Verified} {account : AcmeAccount}
    {check : String → Except Problem Unit} {failureType : String}
    (hfind : st.challenges.find? challenge.challengeId = some challenge)
    (haccount : (lastSegment v.header.kid).bind (getAccountByKid st) = some account)
    (hresult : ∀ auth, challengeResult w challenge account auth =
      some (check (auth.identifier.value.getD "")))
    (hvalidate : validate w st challenge account.jwkThumbprint =
      some (validateChallenge check failureType st challenge w.now)) :
    st.Changes (respondVerified w challenge st v).2 A ↔ RespondWrites w challenge st v A := by
  unfold respondVerified RespondWrites
  rw [haccount]
  dsimp only
  rw [hvalidate]
  cases hauth : st.authorizationOf challenge with
  | none =>
    have herror : validateChallenge check failureType st challenge w.now =
        .error (.attributeError "NoneType" "identifier") := by
      unfold validateChallenge
      rw [hauth]
      rfl
    rw [herror]
    constructor
    · exact fun h => absurd h AcmeStore.not_changes_self
    · exact fun ⟨_, _, _, _, _, h, _⟩ => nomatch h
  | some auth =>
    obtain ⟨st', hok, hchanges⟩ :=
      changes_validateChallenge (A := A) check failureType w.now hfind hauth
    rw [hok]
    dsimp only
    rw [snd_challengeAnswer, hchanges]
    constructor
    · exact fun ⟨order, horder, hA, hupdates⟩ =>
        ⟨account, auth, order, _, rfl, rfl, horder, hA, hresult auth, hupdates⟩
    · intro ⟨_, _, order, _, h, h', horder, hA, hsome, hupdates⟩
      cases h
      cases h'
      cases (hresult auth).symm.trans hsome
      exact ⟨order, horder, hA, hupdates⟩

theorem changes_respond_iff [Sha256] {v : Verified}
    (hfind : st.challenges.find? challenge.challengeId = some challenge) :
    st.Changes (respondVerified w challenge st v).2 A ↔ RespondWrites w challenge st v A := by
  cases haccount : (lastSegment v.header.kid).bind (getAccountByKid st) with
  | none =>
    unfold respondVerified RespondWrites
    rw [haccount]
    constructor
    · exact fun h => absurd h AcmeStore.not_changes_self
    · exact fun ⟨_, _, _, _, h, _⟩ => nomatch h
  | some account =>
    cases htype : challenge.type with
    | http01 =>
      exact changes_respond_of_check hfind haccount
        (fun _ => by unfold challengeResult; rw [htype])
        (by unfold validate validateHttp01Challenge; rw [htype])
    | dns01 =>
      exact changes_respond_of_check hfind haccount
        (fun _ => by unfold challengeResult; rw [htype])
        (by unfold validate validateDns01Challenge; rw [htype])
    | unsupported type =>
      unfold respondVerified RespondWrites
      rw [haccount]
      dsimp only
      have hnone : validate w st challenge account.jwkThumbprint = none := by
        unfold validate
        rw [htype]
      rw [hnone]
      constructor
      · exact fun h => absurd h AcmeStore.not_changes_self
      · intro ⟨_, _, _, _, _, _, _, _, hsome, _⟩
        unfold challengeResult at hsome
        rw [htype] at hsome
        cases hsome

end Challenges

section Requests

variable {st : AcmeStore} {A : String} {w : Surroundings}

theorem createAuthorization_nonces {orderId accountId : String} {identifier : Identifier}
    {d : AuthorizationDraw} {now : Time} {nonces : Registry AcmeNonce} :
    createAuthorization { st with nonces } orderId identifier accountId d now =
      (createAuthorization st orderId identifier accountId d now).map ({ · with nonces }) := by
  ext st'
  rw [Option.map_eq_some_iff]
  constructor
  · intro h
    obtain ⟨auths, challenges, challenges', hauth, hhttp, hdns, heq⟩ :=
      createAuthorization_eq_some.mp h
    exact ⟨_, createAuthorization_eq_some.mpr
      ⟨auths, challenges, challenges', hauth, hhttp, hdns, rfl⟩, heq.symm⟩
  · intro ⟨_, h, heq⟩
    obtain ⟨auths, challenges, challenges', hauth, hhttp, hdns, rfl⟩ :=
      createAuthorization_eq_some.mp h
    exact createAuthorization_eq_some.mpr ⟨auths, challenges, challenges', hauth, hhttp, hdns, heq.symm⟩

theorem persists_nonces {orderId accountId : String} {draw : ℕ → AuthorizationDraw} {now : Time}
    {identifiers : List Identifier} {i : ℕ} {nonces : Registry AcmeNonce} :
    Persists orderId accountId draw now i { st with nonces } identifiers ↔
      Persists orderId accountId draw now i st identifiers := by
  induction identifiers generalizing i st with
  | nil => rfl
  | cons identifier rest ih =>
    unfold Persists
    rw [createAuthorization_nonces]
    cases createAuthorization st orderId identifier accountId (draw i) now with
    | none => rfl
    | some st' => exact or_congr Iff.rfl ih

theorem commitsOrder_nonces {orderId accountId : String} {identifiers : List Identifier}
    {notBefore notAfter : Option Time} {draw : ℕ → AuthorizationDraw} {now : Time}
    {nonces : Registry AcmeNonce} :
    CommitsOrder { st with nonces } orderId accountId identifiers notBefore notAfter draw now ↔
      CommitsOrder st orderId accountId identifiers notBefore notAfter draw now := by
  unfold CommitsOrder
  simp only [insertOrder_eq_some]
  constructor
  · intro ⟨_, ⟨orders, horders, heq⟩, hpersists⟩
    cases heq
    exact ⟨_, ⟨orders, horders, rfl⟩, persists_nonces.mp hpersists⟩
  · intro ⟨_, ⟨orders, horders, heq⟩, hpersists⟩
    cases heq
    exact ⟨_, ⟨orders, horders, rfl⟩, persists_nonces.mpr hpersists⟩

theorem find?_findChallenge {challengeId : String} {challenge : AcmeChallenge}
    (h : findChallenge st challengeId = some challenge) :
    st.challenges.find? challenge.challengeId = some challenge := by
  rcases Option.or_eq_some_iff.mp h with hfirst | ⟨-, hfind⟩
  · exact Registry.find?_of_mem (Registry.mem_of_first hfirst)
  · exact Registry.find?_of_mem (Registry.mem_of_find? hfind)

variable [JoseLibrary] [X509Library]

def AcmeStore.Writes (st : AcmeStore) (w : Surroundings) : AcmeRequest → String → Prop
  | .accountInfo accountId body, A =>
    Passes st body (st.baseUrl ++ "/acme/acct/" ++ accountId) w.now
      (AccountInfoWrites accountId st · A)
  | .newOrder body, A =>
    Passes st body (st.baseUrl ++ "/acme/new-order") w.now (NewOrderWrites w st · A)
  | .respondToChallenge challengeId body, A =>
    ∃ challenge, findChallenge st challengeId = some challenge ∧
      Passes st body
        ((present challenge.url).getD (st.baseUrl ++ "/acme/challenge/" ++ challengeId)) w.now
        (RespondWrites w challenge st · A)
  | .finalizeOrder orderId body, A =>
    Passes st body (st.baseUrl ++ "/acme/order/" ++ orderId ++ "/finalize") w.now
      (FinalizeWrites w orderId st · A)
  | .revokeCert _, _ => False
  | .keyChange body, A =>
    Passes st body (st.baseUrl ++ "/acme/key-change") w.now (KeyChangeWrites st · A)

theorem changes_answer_iff {r : AcmeRequest} :
    st.Changes (st.answer w r).2 A ↔ st.Writes w r A := by
  cases r with
  | accountInfo accountId body => exact changes_accountInfo_iff
  | newOrder body =>
    refine changes_withVerified_iff fun nonces v => changes_newOrder_iff.trans ?_
    unfold NewOrderWrites
    simp only [commitsOrder_nonces]
  | respondToChallenge challengeId body =>
    unfold AcmeStore.answer AcmeStore.Writes respondToChallenge
    cases body with
    | none =>
      constructor
      · exact fun h => absurd h AcmeStore.not_changes_self
      · exact fun ⟨_, _, _, _, hbody, _⟩ => nomatch hbody
    | some jws =>
      dsimp only
      cases hchallenge : findChallenge st challengeId with
      | none =>
        constructor
        · exact fun h => absurd h AcmeStore.not_changes_self
        · exact fun ⟨_, h, _⟩ => nomatch h
      | some challenge =>
        have hfind := find?_findChallenge hchallenge
        refine (changes_withVerified_iff (P := (RespondWrites w challenge st · A))
          fun nonces v => ?_).trans ?_
        · exact changes_respond_iff hfind
        constructor
        · exact fun h => ⟨challenge, rfl, h⟩
        · intro ⟨_, heq, h⟩
          cases heq
          exact h
  | finalizeOrder orderId body =>
    exact changes_withVerified_iff fun nonces v => changes_finalize_iff
  | revokeCert body =>
    refine (changes_withVerified_iff (P := fun _ => False) fun nonces v => ?_).trans ?_
    · rw [snd_revokeVerified]
      exact iff_of_false AcmeStore.not_changes_self not_false
    · exact ⟨fun ⟨_, _, _, _, h⟩ => h, False.elim⟩
  | keyChange body => exact changes_withVerified_iff fun nonces v => changes_keyChange_iff

def AcmeStore.SignedBy (st : AcmeStore) (body : Option Jws) (accountId : String) : Prop :=
  ∃ jws header account, body = some jws ∧ readHeader jws = .ok header ∧
    st.accounts.find? accountId = some account ∧ verifySignature account.jwk header jws = .ok ()

end Requests

section Sample

end Sample

end CaManager
