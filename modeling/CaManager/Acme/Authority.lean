import CaManager.Acme.Lifecycle

/-!
# On whose authority a certificate is issued

An authorization is valid because one of its challenges was found right, or because it took
over the result of one that is. So each valid authorization has a root with a completed
challenge. Whether the challenge was completed by the account that it belongs to is not asked:
a response is checked against the key of the account that its own message names. Nor does a
finalization ask for the account's status or for what has expired meanwhile, and an order can
become ready before all its authorizations are made. Where the events happen to avoid these,
what is issued rests on authorizations that the account completed itself.
-/

namespace CaManager

open Library AcmeService

namespace AcmeStore

def challengeAuthorization (st : AcmeStore) (challengeId : String) : Option String :=
  (st.challenges.find? challengeId).map AcmeChallenge.authorizationId

/-- Later tables: no row is lost, references and terms stay, and no validity is withdrawn. -/
structure Extends (st st' : AcmeStore) : Prop where
  order : ∀ id o, st.orders.find? id = some o → ∃ o', st'.orders.find? id = some o' ∧
    o'.accountId = o.accountId ∧ o'.identifiers = o.identifiers ∧ o'.expires = o.expires
  authorization : ∀ id a, st.authorizations.find? id = some a →
    ∃ a', st'.authorizations.find? id = some a' ∧ a'.orderId = a.orderId ∧
      a'.identifier = a.identifier ∧ a'.expires = a.expires ∧ (a.status = .valid → a'.status = .valid)
  challenge : ∀ id c, st.challenges.find? id = some c →
    ∃ c', st'.challenges.find? id = some c' ∧ c'.authorizationId = c.authorizationId

def Covers (st : AcmeStore) (orderId : String) (identifier : Identifier) : Prop :=
  ∃ a ∈ st.authorizationsOf orderId, a.identifier = identifier

def Authorizes (st : AcmeStore) (orderId : String) (identifier : Identifier) : Prop :=
  ∃ a ∈ st.authorizationsOf orderId, a.identifier = identifier ∧ a.status = .valid

def CompletedBy (st : AcmeStore) (completed : List (String × AcmeAccount)) (accountId : String)
    (a : AcmeAuthorization) : Prop :=
  ∃ entry ∈ completed, entry.2.accountId = accountId ∧
    st.challengeAuthorization entry.1 = some a.authorizationId

/-- The authorization that the validity of another one goes back to. -/
structure Root (st : AcmeStore) (completed : List (String × AcmeAccount)) (accountId : String)
    (a r : AcmeAuthorization) : Prop where
  mem : r ∈ st.authorizations
  owner : st.orderOwner r.orderId = some accountId
  identifier : r.identifier = a.identifier
  expires : r.expires = a.expires
  valid : r.status = .valid
  completed : st.CompletedBy completed accountId r

/-- Every reference resolves; a valid authorization has a root; what was completed was
completed by the owner; a ready order has a valid authorization for every identifier. -/
structure Founded (st : AcmeStore) (completed : List (String × AcmeAccount)) : Prop where
  order : ∀ a ∈ st.authorizations, ∃ accountId, st.orderOwner a.orderId = some accountId
  rooted : ∀ a ∈ st.authorizations, a.status = .valid →
    ∃ accountId r, st.orderOwner a.orderId = some accountId ∧ st.Root completed accountId a r
  owned : ∀ entry ∈ completed, st.challengeOwner entry.1 = some entry.2.accountId
  ready : ∀ o ∈ st.orders, o.status = .ready →
    ∀ identifier ∈ o.identifiers, st.Authorizes o.orderId identifier

section Extension

variable {st st' st'' : AcmeStore} {orderId accountId : String} {identifier : Identifier}
  {completed completed' : List (String × AcmeAccount)} {a : AcmeAuthorization}

theorem Extends.refl (st : AcmeStore) : st.Extends st :=
  ⟨fun _ o h => ⟨o, h, rfl, rfl, rfl⟩, fun _ a h => ⟨a, h, rfl, rfl, rfl, id⟩,
    fun _ c h => ⟨c, h, rfl⟩⟩

theorem Extends.trans (h : st.Extends st') (h' : st'.Extends st'') : st.Extends st'' := by
  refine ⟨?_, ?_, ?_⟩
  · intro id o ho
    obtain ⟨o', ho', haccount, hidentifiers, hexpires⟩ := h.order id o ho
    obtain ⟨o'', ho'', haccount', hidentifiers', hexpires'⟩ := h'.order id o' ho'
    exact ⟨o'', ho'', haccount'.trans haccount, hidentifiers'.trans hidentifiers,
      hexpires'.trans hexpires⟩
  · intro id a ha
    obtain ⟨a', ha', horder, hidentifier, hexpires, hvalid⟩ := h.authorization id a ha
    obtain ⟨a'', ha'', horder', hidentifier', hexpires', hvalid'⟩ := h'.authorization id a' ha'
    exact ⟨a'', ha'', horder'.trans horder, hidentifier'.trans hidentifier,
      hexpires'.trans hexpires, fun hstatus => hvalid' (hvalid hstatus)⟩
  · intro id c hc
    obtain ⟨c', hc', hauth⟩ := h.challenge id c hc
    obtain ⟨c'', hc'', hauth'⟩ := h'.challenge id c' hc'
    exact ⟨c'', hc'', hauth'.trans hauth⟩

theorem Extends.of_eq (horders : st'.orders = st.orders)
    (hauths : st'.authorizations = st.authorizations) (hchallenges : st'.challenges = st.challenges) :
    st.Extends st' :=
  ⟨fun _ o h => ⟨o, horders ▸ h, rfl, rfl, rfl⟩, fun _ a h => ⟨a, hauths ▸ h, rfl, rfl, rfl, id⟩,
    fun _ c h => ⟨c, hchallenges ▸ h, rfl⟩⟩

theorem Extends.orderOwner (h : st.Extends st') (howner : st.orderOwner orderId = some accountId) :
    st'.orderOwner orderId = some accountId := by
  obtain ⟨o, ho, rfl⟩ := Option.map_eq_some_iff.mp howner
  obtain ⟨o', ho', haccount, _⟩ := h.order orderId o ho
  exact Option.map_eq_some_iff.mpr ⟨o', ho', haccount⟩

theorem Extends.challengeAuthorization (h : st.Extends st') {challengeId id : String}
    (hauth : st.challengeAuthorization challengeId = some id) :
    st'.challengeAuthorization challengeId = some id := by
  obtain ⟨c, hc, rfl⟩ := Option.map_eq_some_iff.mp hauth
  obtain ⟨c', hc', hauth'⟩ := h.challenge challengeId c hc
  exact Option.map_eq_some_iff.mpr ⟨c', hc', hauth'⟩

theorem Extends.challengeOwner (h : st.Extends st') {challengeId : String}
    (howner : st.challengeOwner challengeId = some accountId) :
    st'.challengeOwner challengeId = some accountId := by
  obtain ⟨c, hc, howner⟩ := Option.bind_eq_some_iff.mp howner
  obtain ⟨a, ha, howner⟩ := Option.bind_eq_some_iff.mp howner
  obtain ⟨c', hc', hauth⟩ := h.challenge challengeId c hc
  obtain ⟨a', ha', horder, _⟩ := h.authorization c.authorizationId a ha
  refine Option.bind_eq_some_iff.mpr ⟨c', hc', Option.bind_eq_some_iff.mpr ⟨a', ?_, ?_⟩⟩
  · rw [hauth]
    exact ha'
  · rw [horder]
    exact h.orderOwner howner

theorem Extends.mem (h : st.Extends st') (ha : a ∈ st.authorizations) :
    ∃ a' ∈ st'.authorizations, a'.authorizationId = a.authorizationId ∧ a'.orderId = a.orderId ∧
      a'.identifier = a.identifier ∧ a'.expires = a.expires ∧
      (a.status = .valid → a'.status = .valid) := by
  obtain ⟨a', ha', hrest⟩ := h.authorization _ a (Registry.find?_of_mem ha)
  exact ⟨a', Registry.mem_of_find? ha', Registry.name_of_find? ha', hrest⟩

theorem mem_authorizationsOf : a ∈ st.authorizationsOf orderId ↔
    a ∈ st.authorizations ∧ a.orderId = orderId := by
  unfold authorizationsOf
  rw [Registry.mem_select, decide_eq_true_eq]

theorem Extends.covers (h : st.Extends st') (hcovers : st.Covers orderId identifier) :
    st'.Covers orderId identifier := by
  obtain ⟨a, ha, hidentifier⟩ := hcovers
  obtain ⟨hmem, horder⟩ := mem_authorizationsOf.mp ha
  obtain ⟨a', hmem', _, horder', hidentifier', _⟩ := h.mem hmem
  exact ⟨a', mem_authorizationsOf.mpr ⟨hmem', horder'.trans horder⟩, hidentifier'.trans hidentifier⟩

theorem Extends.authorizes (h : st.Extends st') (hauth : st.Authorizes orderId identifier) :
    st'.Authorizes orderId identifier := by
  obtain ⟨a, ha, hidentifier, hvalid⟩ := hauth
  obtain ⟨hmem, horder⟩ := mem_authorizationsOf.mp ha
  obtain ⟨a', hmem', _, horder', hidentifier', _, hvalid'⟩ := h.mem hmem
  exact ⟨a', mem_authorizationsOf.mpr ⟨hmem', horder'.trans horder⟩,
    hidentifier'.trans hidentifier, hvalid' hvalid⟩

theorem Extends.root (h : st.Extends st') (hsub : completed ⊆ completed') {r : AcmeAuthorization}
    (hr : st.Root completed accountId a r) : ∃ r', st'.Root completed' accountId a r' := by
  obtain ⟨r', hmem, hname, horder, hidentifier, hexpires, hvalid⟩ := h.mem hr.mem
  obtain ⟨entry, hentry, haccount, hauth⟩ := hr.completed
  refine ⟨r', hmem, ?_, hidentifier.trans hr.identifier, hexpires.trans hr.expires,
    hvalid hr.valid, entry, hsub hentry, haccount, ?_⟩
  · rw [horder]
    exact h.orderOwner hr.owner
  · rw [hname]
    exact h.challengeAuthorization hauth

/-- What is left to show when tables are extended: new authorizations, new entries of the log
and orders that were not ready before. -/
theorem Founded.extend (h : st.Founded completed) (hext : st.Extends st')
    (hsub : completed ⊆ completed')
    (hauth : ∀ a' ∈ st'.authorizations,
      (∃ a ∈ st.authorizations, a'.orderId = a.orderId ∧ a'.identifier = a.identifier ∧
        a'.expires = a.expires ∧ (a'.status = .valid → a.status = .valid)) ∨
      ∃ accountId, st'.orderOwner a'.orderId = some accountId ∧
        (a'.status = .valid → ∃ r, st'.Root completed' accountId a' r))
    (hentry : ∀ entry ∈ completed', entry ∈ completed ∨
      st'.challengeOwner entry.1 = some entry.2.accountId)
    (hready : ∀ o' ∈ st'.orders, o'.status = .ready →
      (∃ o ∈ st.orders, o'.orderId = o.orderId ∧ o'.identifiers = o.identifiers ∧
        o.status = .ready) ∨
      ∀ identifier ∈ o'.identifiers, st'.Authorizes o'.orderId identifier) :
    st'.Founded completed' := by
  refine ⟨?_, ?_, ?_, ?_⟩
  · intro a' ha'
    rcases hauth a' ha' with ⟨a, ha, horder, _⟩ | ⟨accountId, howner, _⟩
    · obtain ⟨accountId, howner⟩ := h.order a ha
      exact ⟨accountId, horder ▸ hext.orderOwner howner⟩
    · exact ⟨accountId, howner⟩
  · intro a' ha' hstatus
    rcases hauth a' ha' with ⟨a, ha, horder, hidentifier, hexpires, hvalid⟩ | ⟨accountId, howner, hr⟩
    · obtain ⟨accountId, r, howner, hr⟩ := h.rooted a ha (hvalid hstatus)
      obtain ⟨r', hr'⟩ := hext.root hsub hr
      exact ⟨accountId, r', horder ▸ hext.orderOwner howner, hr'.mem, hr'.owner,
        hr'.identifier.trans hidentifier.symm, hr'.expires.trans hexpires.symm, hr'.valid,
        hr'.completed⟩
    · obtain ⟨r, hr⟩ := hr hstatus
      exact ⟨accountId, r, howner, hr⟩
  · intro entry he
    rcases hentry entry he with hold | hnew
    · exact hext.challengeOwner (h.owned entry hold)
    · exact hnew
  · intro o' ho' hstatus identifier hidentifier
    rcases hready o' ho' hstatus with ⟨o, ho, hname, hsame, hstatus⟩ | hnew
    · rw [hname]
      exact hext.authorizes (h.ready o ho hstatus identifier (hsame ▸ hidentifier))
    · exact hnew identifier hidentifier

end Extension

section Changes

variable {st st' : AcmeStore} {orderId accountId : String} {identifier : Identifier}
  {completed : List (String × AcmeAccount)} {now : Time}

theorem extends_of_orders {f : AcmeOrder → AcmeOrder} (hf : ∀ r, (f r).orderId = r.orderId)
    (hterms : ∀ o, (f o).accountId = o.accountId ∧ (f o).identifiers = o.identifiers ∧
      (f o).expires = o.expires)
    (horders : st'.orders = st.orders.modify orderId f hf)
    (hauths : st'.authorizations = st.authorizations) (hchallenges : st'.challenges = st.challenges) :
    st.Extends st' := by
  refine ⟨fun id o ho => ?_, fun _ a ha => ⟨a, hauths ▸ ha, rfl, rfl, rfl, id⟩,
    fun _ c hc => ⟨c, hchallenges ▸ hc, rfl⟩⟩
  have hfind := Registry.find?_modify f hf (t := st.orders) (n := orderId) id
  rw [← horders, ho] at hfind
  split_ifs at hfind
  · exact ⟨f o, hfind, hterms o⟩
  · exact ⟨o, hfind, rfl, rfl, rfl⟩

theorem Founded.markedReady (h : st.Founded completed)
    (horders : st'.orders = st.orders.modify orderId markedReady orderId_markedReady)
    (hauths : st'.authorizations = st.authorizations) (hchallenges : st'.challenges = st.challenges)
    (hready : ∀ o, st.orders.find? orderId = some o →
      ∀ identifier ∈ o.identifiers, st.Authorizes orderId identifier) :
    st.Extends st' ∧ st'.Founded completed := by
  have hext : st.Extends st' :=
    extends_of_orders orderId_markedReady (fun _ => ⟨rfl, rfl, rfl⟩) horders hauths hchallenges
  refine ⟨hext, h.extend hext (List.Subset.refl _) ?_ (fun _ he => .inl he) ?_⟩
  · intro a ha
    exact .inl ⟨a, hauths ▸ ha, rfl, rfl, rfl, id⟩
  · intro o' ho' hstatus
    rw [horders] at ho'
    obtain ⟨o, ho, heq⟩ := (Registry.mem_modify CaManager.markedReady orderId_markedReady).mp ho'
    split_ifs at heq with hname
    · right
      intro identifier hidentifier
      rw [heq] at hidentifier
      have hname : o.orderId = orderId := hname
      have hfind : st.orders.find? orderId = some o := hname ▸ Registry.find?_of_mem ho
      have hauth := hext.authorizes (hready o hfind identifier hidentifier)
      rw [heq, orderId_markedReady, hname]
      exact hauth
    · rw [heq] at hstatus ⊢
      exact .inl ⟨o, ho, rfl, rfl, hstatus⟩

theorem Founded.settled (h : st.Founded completed) {f : AcmeOrder → AcmeOrder}
    (hf : ∀ r, (f r).orderId = r.orderId)
    (hterms : ∀ o, (f o).accountId = o.accountId ∧ (f o).identifiers = o.identifiers ∧
      (f o).expires = o.expires) (hstatus : ∀ o, (f o).status ≠ .ready)
    (horders : st'.orders = st.orders.modify orderId f hf)
    (hauths : st'.authorizations = st.authorizations) (hchallenges : st'.challenges = st.challenges) :
    st.Extends st' ∧ st'.Founded completed := by
  have hext : st.Extends st' := extends_of_orders hf hterms horders hauths hchallenges
  refine ⟨hext, h.extend hext (List.Subset.refl _) ?_ (fun _ he => .inl he) ?_⟩
  · intro a ha
    exact .inl ⟨a, hauths ▸ ha, rfl, rfl, rfl, id⟩
  · intro o' ho' hready
    rw [horders] at ho'
    obtain ⟨o, ho, heq⟩ := (Registry.mem_modify f hf).mp ho'
    split_ifs at heq
    · exact absurd (heq ▸ hready) (hstatus o)
    · rw [heq] at hready ⊢
      exact .inl ⟨o, ho, rfl, rfl, hready⟩

theorem Founded.of_eq (h : st.Founded completed) (horders : st'.orders = st.orders)
    (hauths : st'.authorizations = st.authorizations) (hchallenges : st'.challenges = st.challenges) :
    st'.Founded completed := by
  refine h.extend (.of_eq horders hauths hchallenges) (List.Subset.refl _) ?_
    (fun _ he => .inl he) ?_
  · intro a ha
    exact .inl ⟨a, hauths ▸ ha, rfl, rfl, rfl, id⟩
  · intro o ho hready
    exact .inl ⟨o, horders ▸ ho, rfl, rfl, hready⟩

theorem Founded.insertOrder (h : st.Founded completed) {identifiers : List Identifier}
    {notBefore notAfter : Option Time}
    (hinsert : insertOrder st orderId accountId identifiers notBefore notAfter now = some st') :
    st.Extends st' ∧ st'.Founded completed ∧
      ∃ o, st'.orders.find? orderId = some o ∧ o.accountId = accountId ∧
        o.identifiers = identifiers := by
  obtain ⟨orders, horders, rfl⟩ := insertOrder_eq_some.mp hinsert
  have hext : st.Extends { st with orders } :=
    ⟨fun _ o ho => ⟨o, Registry.find?_insert_of_some horders ho, rfl, rfl, rfl⟩,
      fun _ a ha => ⟨a, ha, rfl, rfl, rfl, id⟩, fun _ c hc => ⟨c, hc, rfl⟩⟩
  refine ⟨hext, h.extend hext (List.Subset.refl _) ?_ (fun _ he => .inl he) ?_,
    _, Registry.find?_insert_self horders, rfl, rfl⟩
  · exact fun a ha => .inl ⟨a, ha, rfl, rfl, rfl, id⟩
  · intro o ho hready
    rcases (Registry.mem_insert horders).mp ho with hold | hnew
    · exact .inl ⟨o, hold, rfl, rfl, hready⟩
    · rw [hnew] at hready
      cases hready

theorem Founded.createAuthorization (h : st.Founded completed)
    (howner : st.orderOwner orderId = some accountId) {d : AuthorizationDraw}
    (hcreate : createAuthorization st orderId identifier accountId d now = some st') :
    st.Extends st' ∧ st'.Founded completed ∧ st'.Covers orderId identifier := by
  obtain ⟨auths, challenges, challenges', hauth, hhttp, hdns, rfl⟩ :=
    createAuthorization_eq_some.mp hcreate
  have hext : st.Extends { st with authorizations := auths, challenges := challenges' } :=
    ⟨fun _ o ho => ⟨o, ho, rfl, rfl, rfl⟩,
      fun _ a ha => ⟨a, Registry.find?_insert_of_some hauth ha, rfl, rfl, rfl, id⟩,
      fun _ c hc => ⟨c, Registry.find?_insert_of_some hdns (Registry.find?_insert_of_some hhttp hc),
        rfl⟩⟩
  have hnew : newAuthorization st orderId identifier accountId d now ∈ auths :=
    (Registry.mem_insert hauth).mpr (.inr rfl)
  have hidentifier : (newAuthorization st orderId identifier accountId d now).identifier =
      identifier := by
    unfold newAuthorization
    split <;> rfl
  refine ⟨hext, h.extend hext (List.Subset.refl _) ?_ (fun _ he => .inl he) ?_,
    _, mem_authorizationsOf.mpr ⟨hnew, newAuthorization_orderId⟩, hidentifier⟩
  · intro a ha
    rcases (Registry.mem_insert hauth).mp ha with hold | rfl
    · exact .inl ⟨a, hold, rfl, rfl, rfl, id⟩
    · refine .inr ⟨accountId, ?_, fun hvalid => ?_⟩
      · rw [newAuthorization_orderId]
        exact howner
      · cases hreuse : reusableAuthorization st accountId identifier now with
        | none =>
          unfold newAuthorization at hvalid
          rw [hreuse] at hvalid
          cases hvalid
        | some v =>
          have hv := reusable_of_reusableAuthorization hreuse
          obtain ⟨B, r, hB, hr⟩ := h.rooted v hv.mem hv.valid
          cases hB.symm.trans hv.owner
          have hexpires : (newAuthorization st orderId identifier accountId d now).expires =
              v.expires := by
            unfold newAuthorization
            rw [hreuse]
          obtain ⟨r', hr'⟩ := hext.root (List.Subset.refl _) hr
          exact ⟨r', hr'.mem, hr'.owner, hr'.identifier.trans (hv.identifier.trans hidentifier.symm),
            hr'.expires.trans hexpires.symm, hr'.valid, hr'.completed⟩
  · exact fun o ho hready => .inl ⟨o, ho, rfl, rfl, hready⟩

theorem authorizes_of_covers (hcovers : st.Covers orderId identifier)
    (hvalid : ∀ a ∈ st.authorizationsOf orderId, a.status = .valid) :
    st.Authorizes orderId identifier := by
  obtain ⟨a, ha, hidentifier⟩ := hcovers
  exact ⟨a, ha, hidentifier, hvalid a ha⟩

theorem Founded.finishOrder (h : st.Founded completed)
    (hcovers : ∀ o, st.orders.find? orderId = some o →
      ∀ identifier ∈ o.identifiers, st.Covers orderId identifier) :
    st.Extends (finishOrder st orderId) ∧ (finishOrder st orderId).Founded completed := by
  unfold AcmeService.finishOrder readyIfAllValid
  split_ifs with hempty hall
  · exact ⟨.refl st, h⟩
  · have hvalid : ∀ a ∈ st.authorizationsOf orderId, a.status = .valid := by simpa using hall
    exact h.markedReady rfl rfl rfl fun o ho identifier hidentifier =>
      authorizes_of_covers (hcovers o ho identifier hidentifier) hvalid
  · exact ⟨.refl st, h⟩

def Ordering (st : AcmeStore) (orderId accountId : String) (remaining : List Identifier) : Prop :=
  ∃ o, st.orders.find? orderId = some o ∧ o.accountId = accountId ∧
    ∀ identifier ∈ o.identifiers, identifier ∈ remaining ∨ st.Covers orderId identifier

theorem Extends.ordering (h : st.Extends st') {remaining : List Identifier}
    (hordering : st.Ordering orderId accountId remaining) :
    st'.Ordering orderId accountId remaining := by
  obtain ⟨o, ho, haccount, hcovers⟩ := hordering
  obtain ⟨o', ho', haccount', hidentifiers, _⟩ := h.order orderId o ho
  refine ⟨o', ho', haccount'.trans haccount, fun identifier hidentifier => ?_⟩
  exact (hcovers identifier (hidentifiers ▸ hidentifier)).imp_right h.covers

theorem Founded.authorizeNext (h : st.Founded completed) {draw : ℕ → AuthorizationDraw} {i : ℕ}
    {remaining : List Identifier} {t : AcmeThread}
    (hordering : st.Ordering orderId accountId remaining)
    (hnext : authorizeNext orderId accountId draw now i remaining st = some (st', t)) :
    st.Extends st' ∧ st'.Founded completed ∧ (t = .finished ∨
      ∃ i remaining, t = .ordering orderId accountId i remaining ∧
        st'.Ordering orderId accountId remaining) := by
  induction remaining generalizing i st with
  | nil =>
    unfold CaManager.authorizeNext at hnext
    cases hnext
    obtain ⟨o, ho, _, hcovers⟩ := hordering
    have hcovers' : ∀ o', st.orders.find? orderId = some o' →
        ∀ identifier ∈ o'.identifiers, st.Covers orderId identifier := by
      intro o' ho' identifier hidentifier
      cases ho.symm.trans ho'
      exact (hcovers identifier hidentifier).resolve_left List.not_mem_nil
    obtain ⟨hext, hfounded⟩ := h.finishOrder hcovers'
    exact ⟨hext, hfounded, .inl rfl⟩
  | cons identifier rest ih =>
    unfold CaManager.authorizeNext at hnext
    cases hcreate : AcmeService.createAuthorization st orderId identifier accountId (draw i) now with
    | none =>
      rw [hcreate] at hnext
      cases hnext
    | some st₁ =>
      rw [hcreate] at hnext
      dsimp only at hnext
      obtain ⟨o, ho, haccount, hcovers⟩ := hordering
      have howner : st.orderOwner orderId = some accountId :=
        Option.map_eq_some_iff.mpr ⟨o, ho, haccount⟩
      obtain ⟨hext, hfounded, hnew⟩ := h.createAuthorization howner hcreate
      have hordering₁ : st₁.Ordering orderId accountId rest := by
        obtain ⟨o', ho', haccount', hidentifiers, _⟩ := hext.order orderId o ho
        refine ⟨o', ho', haccount'.trans haccount, fun x hx => ?_⟩
        rcases hcovers x (hidentifiers ▸ hx) with hmem | hcovered
        · rcases List.mem_cons.mp hmem with rfl | hrest
          · exact .inr hnew
          · exact .inl hrest
        · exact .inr (hext.covers hcovered)
      split_ifs at hnext
      · obtain ⟨hext', hrest⟩ := ih hfounded hordering₁ hnext
        exact ⟨hext.trans hext', hrest⟩
      · cases hnext
        exact ⟨hext, hfounded, .inr ⟨_, _, rfl, hordering₁⟩⟩

section Challenges

variable {challenge : AcmeChallenge} {auth : AcmeAuthorization} {account : AcmeAccount}

theorem Founded.withFailed (h : st.Founded completed) (problem : Problem)
    (hfind : st.challenges.find? challenge.challengeId = some challenge) :
    st.Extends (withFailed st challenge problem) ∧
      (withFailed st challenge problem).Founded completed := by
  have hext : st.Extends (AcmeService.withFailed st challenge problem) := by
    refine ⟨fun _ o ho => ⟨o, ho, rfl, rfl, rfl⟩, fun _ a ha => ⟨a, ha, rfl, rfl, rfl, id⟩, ?_⟩
    intro id c hc
    have hfind' : (AcmeService.withFailed st challenge problem).challenges.find? id = _ :=
      find?_withFailed hfind id
    split_ifs at hfind' with hid
    · rw [hid, hfind] at hc
      cases hc
      exact ⟨_, hfind', rfl⟩
    · exact ⟨c, hfind'.trans hc, rfl⟩
  refine ⟨hext, h.extend hext (List.Subset.refl _) ?_ (fun _ he => .inl he) ?_⟩
  · exact fun a ha => .inl ⟨a, ha, rfl, rfl, rfl, id⟩
  · exact fun o ho hready => .inl ⟨o, ho, rfl, rfl, hready⟩

theorem extends_withValid (now : Time)
    (hfind : st.challenges.find? challenge.challengeId = some challenge)
    (hauth : st.authorizations.find? auth.authorizationId = some auth) :
    st.Extends (withValid (withValidated st challenge now) auth) := by
  refine ⟨fun _ o ho => ⟨o, ho, rfl, rfl, rfl⟩, ?_, ?_⟩
  · intro id a ha
    have hfind' : (withValid (withValidated st challenge now) auth).authorizations.find? id = _ :=
      find?_withValid hauth id
    split_ifs at hfind' with hid
    · rw [hid, hauth] at ha
      cases ha
      exact ⟨_, hfind', rfl, rfl, rfl, fun _ => rfl⟩
    · exact ⟨a, hfind'.trans ha, rfl, rfl, rfl, fun h => h⟩
  · intro id c hc
    have hfind' : (withValid (withValidated st challenge now) auth).challenges.find? id = _ :=
      find?_withValidated hfind id
    split_ifs at hfind' with hid
    · rw [hid, hfind] at hc
      cases hc
      exact ⟨_, hfind', rfl⟩
    · exact ⟨c, hfind'.trans hc, rfl⟩

theorem orderOwner_of_challengeOwner {accountId : String}
    (hfind : st.challenges.find? challenge.challengeId = some challenge)
    (hauth : st.authorizationOf challenge = some auth)
    (howner : st.challengeOwner challenge.challengeId = some accountId) :
    st.orderOwner auth.orderId = some accountId := by
  unfold challengeOwner at howner
  rw [hfind, Option.bind_some] at howner
  unfold authorizationOwner at howner
  unfold authorizationOf at hauth
  rw [hauth] at howner
  exact howner

theorem Founded.withValid (h : st.Founded completed) (now : Time)
    (hfind : st.challenges.find? challenge.challengeId = some challenge)
    (hauth : st.authorizationOf challenge = some auth)
    (howner : st.challengeOwner challenge.challengeId = some account.accountId) :
    st.Extends (withValid (withValidated st challenge now) auth) ∧
      (withValid (withValidated st challenge now) auth).Founded
        (completed ++ [(challenge.challengeId, account)]) := by
  have hname : auth.authorizationId = challenge.authorizationId := Registry.name_of_find? hauth
  have hauth' : st.authorizations.find? auth.authorizationId = some auth := hname ▸ hauth
  have horder : st.orderOwner auth.orderId = some account.accountId :=
    orderOwner_of_challengeOwner hfind hauth howner
  have hext := extends_withValid now hfind hauth'
  refine ⟨hext, h.extend hext (List.subset_append_left _ _) ?_ ?_ ?_⟩
  · intro a ha
    have hfind' := Registry.find?_of_mem ha
    have hauths : (AcmeService.withValid (withValidated st challenge now) auth).authorizations.find?
        a.authorizationId = _ := find?_withValid hauth' a.authorizationId
    by_cases hid : a.authorizationId = auth.authorizationId
    · -- the authorization of the challenge is its own root
      have heq : a = validAuthorization auth :=
        Option.some.inj (hfind'.symm.trans (hauths.trans (if_pos hid)))
      have howner' : (AcmeService.withValid (withValidated st challenge now) auth).orderOwner
          a.orderId = some account.accountId := by
        rw [heq]
        exact hext.orderOwner horder
      refine .inr ⟨account.accountId, howner', fun hvalid => ⟨a, ha, howner', rfl, rfl, hvalid, ?_⟩⟩
      refine ⟨_, List.mem_append_right _ List.mem_cons_self, rfl, ?_⟩
      have hchallenge : (withValidated st challenge now).challenges.find? challenge.challengeId = _ :=
        find?_withValidated hfind challenge.challengeId
      rw [if_pos rfl] at hchallenge
      unfold challengeAuthorization
      rw [hid, hname]
      exact congrArg (Option.map AcmeChallenge.authorizationId) hchallenge
    · have hold : st.authorizations.find? a.authorizationId = some a :=
        (hauths.trans (if_neg hid)).symm.trans hfind'
      exact .inl ⟨a, Registry.mem_of_find? hold, rfl, rfl, rfl, id⟩
  · intro entry hentry
    rcases List.mem_append.mp hentry with hold | hnew
    · exact .inl hold
    · rw [List.mem_singleton.mp hnew]
      exact .inr (hext.challengeOwner howner)
  · exact fun o ho hready => .inl ⟨o, ho, rfl, rfl, hready⟩

/-- The condition on a response whose challenge is found right: it names the owner of the
challenge, and an order that becomes ready is complete. -/
def Answers (st : AcmeStore) (challenge : AcmeChallenge) (auth : AcmeAuthorization)
    (account : AcmeAccount) : Prop :=
  st.challengeOwner challenge.challengeId = some account.accountId ∧
    (LastMissing st auth → ∀ order ∈ st.orderOf auth, ∀ identifier ∈ order.identifiers,
      st.Covers order.orderId identifier)

theorem Founded.validateChallenge (h : st.Founded completed)
    {check : String → Except Problem Unit} {failureType : String}
    (hfind : st.challenges.find? challenge.challengeId = some challenge)
    (hauth : st.authorizationOf challenge = some auth)
    (hcheck : check (auth.identifier.value.getD "") = .ok ())
    (hanswers : st.Answers challenge auth account)
    (hvalidate : validateChallenge check failureType st challenge now = .ok st') :
    st.Extends st' ∧ st'.Founded (completed ++ [(challenge.challengeId, account)]) := by
  obtain ⟨howner, hcovers⟩ := hanswers
  obtain ⟨hext, hfounded⟩ := h.withValid now hfind hauth howner
  rw [validateChallenge_of_ok hfind hauth hcheck] at hvalidate
  have horder : ∃ order, st.orderOf auth = some order := by
    unfold challengeOwner at howner
    rw [hfind, Option.bind_some] at howner
    unfold authorizationOwner at howner
    unfold authorizationOf at hauth
    rw [hauth] at howner
    obtain ⟨order, horder, _⟩ := Option.map_eq_some_iff.mp howner
    exact ⟨order, horder⟩
  obtain ⟨order, horder⟩ := horder
  have hname : order.orderId = auth.orderId := Registry.name_of_find? horder
  rw [horder] at hvalidate
  cases hvalidate
  unfold readyIfAllValid
  split_ifs with hall
  · have hvalid : ∀ a ∈ (AcmeService.withValid (withValidated st challenge now) auth).authorizationsOf
        order.orderId, a.status = .valid := by simpa using hall
    have hlast : LastMissing st auth :=
      all_valid_iff.mp (hname ▸ hall)
    have hready : ∀ o, st.orders.find? order.orderId = some o → ∀ identifier ∈ o.identifiers,
        (AcmeService.withValid (withValidated st challenge now) auth).Authorizes order.orderId
          identifier := by
      intro o ho identifier hidentifier
      cases horder.symm.trans (hname ▸ ho)
      exact authorizes_of_covers (hext.covers (hcovers hlast order horder identifier hidentifier))
        hvalid
    have horders : ((AcmeService.withValid (withValidated st challenge now) auth).setOrder
        order.orderId fun o => { o with status := .ready }).orders =
        (AcmeService.withValid (withValidated st challenge now) auth).orders.modify order.orderId
          CaManager.markedReady orderId_markedReady := rfl
    obtain ⟨hext', hfounded'⟩ := hfounded.markedReady horders rfl rfl hready
    exact ⟨hext.trans hext', hfounded'⟩
  · exact ⟨hext, hfounded⟩

theorem Founded.validate [Sha256] {w : Surroundings} (h : st.Founded completed)
    (hfind : st.challenges.find? challenge.challengeId = some challenge)
    (hanswers : ∀ auth ∈ st.authorizationOf challenge,
      isFoundRight w st challenge account → st.Answers challenge auth account)
    (hvalidate : AcmeApi.validate w st challenge account.jwkThumbprint = some (.ok st')) :
    st.Extends st' ∧ st'.Founded (completed ++ (if isFoundRight w st challenge account then
      some (challenge.challengeId, account) else none).toList) := by
  obtain ⟨check, failureType, auth, hauth, hresult, hok⟩ := validate_eq_ok hvalidate
  cases hcheck : check (auth.identifier.value.getD "") with
  | error problem =>
    have hwrong : isFoundRight w st challenge account = false := by
      rw [Bool.eq_false_iff]
      intro hright
      obtain ⟨auth', hauth', hresult'⟩ := isFoundRight_iff.mp hright
      cases hauth.symm.trans hauth'
      rw [hresult, hcheck] at hresult'
      cases hresult'
    rw [validateChallenge_of_error hauth hcheck] at hok
    cases hok
    rw [hwrong]
    obtain ⟨hext, hfounded⟩ := h.withFailed problem hfind
    exact ⟨hext, (List.append_nil completed).symm ▸ hfounded⟩
  | ok u =>
    have hright : isFoundRight w st challenge account = true :=
      isFoundRight_iff.mpr ⟨auth, hauth, by rw [hresult, hcheck]⟩
    rw [hright]
    exact h.validateChallenge hfind hauth hcheck (hanswers auth hauth hright) hok

end Challenges

end Changes

def Current (st : AcmeStore) (order : AcmeOrder) (now : Time) : Prop :=
  (∃ account ∈ st.accounts.find? order.accountId, account.status = .valid) ∧
    now < order.expires ∧ ∀ a ∈ st.authorizationsOf order.orderId, now < a.expires

/-- The account is valid and the order unexpired, and every identifier has a valid unexpired
authorization of the account, whose challenges were completed by this account and no other. -/
structure Authorized (st : AcmeStore) (completed : List (String × AcmeAccount))
    (order : AcmeOrder) (now : Time) : Prop where
  account : ∃ account, st.accounts.find? order.accountId = some account ∧ account.status = .valid
  unexpired : now < order.expires
  identifiers : ∀ identifier ∈ order.identifiers,
    ∃ a, Reusable st order.accountId identifier now a ∧ st.CompletedBy completed order.accountId a ∧
      ∀ entry ∈ completed, st.challengeAuthorization entry.1 = some a.authorizationId →
        entry.2.accountId = order.accountId

theorem Founded.authorized {st : AcmeStore} {completed : List (String × AcmeAccount)}
    {order : AcmeOrder} {now : Time} (h : st.Founded completed)
    (horder : st.orders.find? order.orderId = some order)
    (hauths : ∀ identifier ∈ order.identifiers, st.Authorizes order.orderId identifier)
    (hcurrent : st.Current order now) : st.Authorized completed order now := by
  obtain ⟨⟨account, haccount, hstatus⟩, hunexpired, hauthorizations⟩ := hcurrent
  refine ⟨⟨account, haccount, hstatus⟩, hunexpired, fun identifier hidentifier => ?_⟩
  obtain ⟨a, ha, heq, hvalid⟩ := hauths identifier hidentifier
  obtain ⟨hmem, hname⟩ := mem_authorizationsOf.mp ha
  obtain ⟨A, r, hA, hr⟩ := h.rooted a hmem hvalid
  have howner : st.orderOwner a.orderId = some order.accountId := by
    rw [hname]
    exact Option.map_eq_some_iff.mpr ⟨order, horder, rfl⟩
  cases hA.symm.trans howner
  have hexpires : now < r.expires := by
    rw [hr.expires]
    exact hauthorizations a ha
  refine ⟨r, ⟨hr.mem, hr.owner, hr.identifier.trans heq, hr.valid, hexpires⟩, hr.completed, ?_⟩
  intro entry hentry hchallenge
  obtain ⟨c, hc, hauth⟩ := Option.map_eq_some_iff.mp hchallenge
  have hentryOwner := h.owned entry hentry
  unfold challengeOwner at hentryOwner
  rw [hc, Option.bind_some, hauth] at hentryOwner
  unfold authorizationOwner at hentryOwner
  rw [show st.authorizations.find? r.authorizationId = some r from Registry.find?_of_mem hr.mem,
    Option.bind_some, hr.owner] at hentryOwner
  exact (Option.some.inj hentryOwner).symm

end AcmeStore

def AcmeThread.Founded (st : AcmeStore) : AcmeThread → Prop
  | .ordering orderId accountId _ remaining => st.Ordering orderId accountId remaining
  | .finalizing order _ _ =>
    ∃ o, st.orders.find? order.orderId = some o ∧ o.accountId = order.accountId ∧
      o.identifiers = order.identifiers ∧ o.expires = order.expires ∧
      ∀ identifier ∈ order.identifiers, st.Authorizes order.orderId identifier
  | _ => True

theorem AcmeThread.Founded.extend {st st' : AcmeStore} (h : st.Extends st') {t : AcmeThread}
    (ht : t.Founded st) : t.Founded st' := by
  cases t with
  | ordering orderId accountId next remaining => exact h.ordering ht
  | finalizing order csr domains =>
    obtain ⟨o, ho, haccount, hidentifiers, hexpires, hauths⟩ := ht
    obtain ⟨o', ho', haccount', hidentifiers', hexpires'⟩ := h.order _ o ho
    exact ⟨o', ho', haccount'.trans haccount, hidentifiers'.trans hidentifiers,
      hexpires'.trans hexpires, fun identifier hid => h.authorizes (hauths identifier hid)⟩
  | responding challengeId account => trivial
  | signed orderId csr result => trivial
  | finished => trivial

namespace AcmeServer

/-- A challenge is found right for its owner, once the order is complete if this makes it
ready, and what is signed for is current. -/
def Lawful [Sha256] (s : AcmeServer) (w : Surroundings) : AcmeThread → Prop
  | .responding challengeId account =>
    ∀ challenge ∈ s.db.challenges.find? challengeId, ∀ auth ∈ s.db.authorizationOf challenge,
      isFoundRight w s.db challenge account → s.db.Answers challenge auth account
  | .finalizing order _ _ => s.db.Current order w.sign.now
  | _ => True

def KeepsAuthority [Sha256] (s : AcmeServer) : AcmeEvent → Prop
  | .proceed i w => ∀ t ∈ s.threads[i]?, s.Lawful w t
  | _ => True

structure Founded (s : AcmeServer) : Prop where
  db : s.db.Founded s.completed
  threads : ∀ t ∈ s.threads, t.Founded s.db

section Steps

variable {s : AcmeServer} {w : Surroundings}

theorem Founded.start (h : s.Founded) {db : AcmeStore} {t : AcmeThread} (hext : s.db.Extends db)
    (hdb : db.Founded s.completed) (ht : t.Founded db) :
    ({ s with db }.start t : AcmeServer).Founded := by
  refine ⟨hdb, fun t' ht' => ?_⟩
  rcases List.mem_append.mp ht' with hold | hnew
  · exact (h.threads t' hold).extend hext
  · rw [List.mem_singleton.mp hnew]
    exact ht

theorem Founded.commit (h : s.Founded) {i : ℕ} {t : Transaction} (hext : s.db.Extends t.db)
    (hdb : t.db.Founded (s.completed ++ t.completed.toList)) (ht : t.thread.Founded t.db) :
    (s.commit i t).Founded := by
  refine ⟨hdb, fun t' ht' => ?_⟩
  rcases List.mem_or_eq_of_mem_set ht' with hold | rfl
  · exact (h.threads t' hold).extend hext
  · exact ht

theorem Founded.of_eq (h : s.Founded) {db : AcmeStore} (horders : db.orders = s.db.orders)
    (hauths : db.authorizations = s.db.authorizations)
    (hchallenges : db.challenges = s.db.challenges) : ({ s with db } : AcmeServer).Founded :=
  ⟨h.db.of_eq horders hauths hchallenges,
    fun t ht => (h.threads t ht).extend (.of_eq horders hauths hchallenges)⟩

theorem Founded.commit_ended (h : s.Founded) {i : ℕ} {db : AcmeStore} (hext : s.db.Extends db)
    (hdb : db.Founded s.completed) : (s.commit i { db }).Founded :=
  h.commit hext ((List.append_nil s.completed).symm ▸ hdb) trivial

theorem Founded.commit_settled (h : s.Founded) {i : ℕ} {orderId : String}
    {f : AcmeOrder → AcmeOrder} (hf : ∀ r, (f r).orderId = r.orderId)
    (hterms : ∀ o, (f o).accountId = o.accountId ∧ (f o).identifiers = o.identifiers ∧
      (f o).expires = o.expires) (hstatus : ∀ o, (f o).status ≠ .ready) :
    (s.commit i { db := s.db.setOrder orderId f hf }).Founded := by
  have horders : (s.db.setOrder orderId f hf).orders = s.db.orders.modify orderId f hf := rfl
  obtain ⟨hext, hfounded⟩ := h.db.settled hf hterms hstatus horders rfl rfl
  exact h.commit_ended hext hfounded

variable [Sha256] [X509Library]

theorem Founded.run (h : s.Founded) {i : ℕ} {t : AcmeThread} (hi : s.threads[i]? = some t)
    (ht : s.Lawful w t) : (s.commit i (t.run w s.db)).Founded := by
  have hthread : t.Founded s.db := h.threads t (List.mem_of_getElem? hi)
  have hempty : ∀ {db : AcmeStore}, db.Founded s.completed → db.Founded (s.completed ++ []) :=
    fun hdb => (List.append_nil s.completed).symm ▸ hdb
  have hquiet : (s.commit i { db := s.db }).Founded := h.commit_ended (.refl _) h.db
  cases t with
  | ordering orderId accountId next remaining =>
    unfold AcmeThread.run
    dsimp only
    cases hnext : authorizeNext orderId accountId w.authorization w.now next remaining s.db with
    | none => exact hquiet
    | some result =>
      obtain ⟨db, thread⟩ := result
      obtain ⟨hext, hfounded, hthread'⟩ := h.db.authorizeNext hthread hnext
      refine h.commit hext (hempty hfounded) ?_
      rcases hthread' with rfl | ⟨_, _, rfl, hordering⟩
      · trivial
      · exact hordering
  | responding challengeId account =>
    unfold AcmeThread.run
    dsimp only
    cases hfind : s.db.challenges.find? challengeId with
    | none => exact hquiet
    | some challenge =>
      dsimp only
      split
      next db hvalidate =>
        have hname : challenge.challengeId = challengeId := Registry.name_of_find? hfind
        subst hname
        obtain ⟨hext, hfounded⟩ := h.db.validate hfind (ht challenge hfind) hvalidate
        exact h.commit hext hfounded trivial
      next => exact hquiet
  | finalizing order csr domains =>
    have hstore := finalizeSign_store s.db order csr domains w.sign
    unfold AcmeThread.run
    dsimp only
    cases hsign : finalizeSign s.db order csr domains w.sign with
    | raised e => exact hquiet
    | failed message db =>
      rw [hsign] at hstore
      obtain ⟨store, rfl⟩ := hstore
      exact h.commit (.of_eq rfl rfl rfl) (hempty (h.db.of_eq rfl rfl rfl)) trivial
    | signed certId db =>
      rw [hsign] at hstore
      obtain ⟨store, rfl⟩ := hstore
      exact h.commit (.of_eq rfl rfl rfl) (hempty (h.db.of_eq rfl rfl rfl)) trivial
  | signed orderId csr result =>
    -- whatever the outcome, the order is not ready afterwards
    cases result with
    | ok certId =>
      exact h.commit_settled _ (fun _ => ⟨rfl, rfl, rfl⟩) fun _ hready => nomatch hready
    | error message =>
      exact h.commit_settled _ (fun _ => ⟨rfl, rfl, rfl⟩) fun _ hready => nomatch hready
  | finished => exact hquiet

theorem Founded.step (h : s.Founded) {e : AcmeEvent} (he : s.KeepsAuthority e) :
    (s.step e).Founded := by
  cases e with
  | newOrder accountId identifiers notBefore notAfter w =>
    unfold AcmeServer.step
    dsimp only
    cases getAccountByKid s.db accountId with
    | none => exact h
    | some account =>
      dsimp only
      split_ifs
      · exact h
      · cases hbegin : beginOrder s.db account.accountId identifiers notBefore notAfter w with
        | none => exact h
        | some result =>
          obtain ⟨db, thread⟩ := result
          obtain ⟨working, hinsert, hnext⟩ := Option.bind_eq_some_iff.mp hbegin
          obtain ⟨hext, hfounded, o, ho, haccount, hidentifiers⟩ := h.db.insertOrder hinsert
          have hordering : working.Ordering w.orderId account.accountId identifiers :=
            ⟨o, ho, haccount, fun identifier hid => .inl (hidentifiers ▸ hid)⟩
          obtain ⟨hext', hfounded', hthread⟩ := hfounded.authorizeNext hordering hnext
          refine h.start (hext.trans hext') hfounded' ?_
          rcases hthread with rfl | ⟨_, _, rfl, hordering⟩
          · trivial
          · exact hordering
  | respond challengeId accountId =>
    unfold AcmeServer.step
    dsimp only
    split
    · exact h.start (.refl _) h.db trivial
    · exact h
  | finalize orderId csr =>
    unfold AcmeServer.step
    dsimp only
    split
    next order csr domains hcheck =>
      obtain ⟨horder, hready, _⟩ := checkFinalize_eq_ok.mp hcheck
      have hname : order.orderId = orderId := Registry.name_of_find? horder
      subst hname
      exact h.start (.refl _) h.db ⟨order, horder, rfl, rfl, rfl,
        h.db.ready order (Registry.mem_of_find? horder) hready⟩
    · exact h
  | proceed i w =>
    unfold AcmeServer.step
    dsimp only
    cases hi : s.threads[i]? with
    | none => exact h
    | some t => exact h.run hi (he t hi)
  | accounts rows => exact h.of_eq rfl rfl rfl
  | nonces rows => exact h.of_eq rfl rfl rfl
  | certificates op => exact h.of_eq rfl rfl rfl
  | settings localDomains domains issuingCaId => exact h.of_eq rfl rfl rfl

theorem issued_run {st : AcmeStore} {t : AcmeThread} {orderId : String} {certId : ℕ}
    (h : (t.run w st).issued = some (orderId, certId)) :
    ∃ order csr domains, t = .finalizing order csr domains ∧ order.orderId = orderId := by
  cases t with
  | ordering id accountId next remaining =>
    unfold AcmeThread.run at h
    dsimp only at h
    split at h <;> cases h
  | responding challengeId account =>
    unfold AcmeThread.run at h
    dsimp only at h
    split at h
    · cases h
    · split at h <;> cases h
  | finalizing order csr domains =>
    have hissued : ∀ k : Option ℕ, k.map (fun certId => (order.orderId, certId)) =
        some (orderId, certId) → order.orderId = orderId := by
      intro k hk
      obtain ⟨_, _, heq⟩ := Option.map_eq_some_iff.mp hk
      exact congrArg Prod.fst heq
    unfold AcmeThread.run at h
    dsimp only at h
    refine ⟨order, csr, domains, rfl, ?_⟩
    split at h
    · cases h
    · exact hissued _ h
    · exact hissued _ h
  | signed id csr result =>
    cases result <;> cases h
  | finished => cases h

theorem issued_step {e : AcmeEvent} {orderId : String} {certId : ℕ}
    (h : (s.step e).issued = s.issued ++ [(orderId, certId)]) :
    ∃ i w order csr domains, e = .proceed i w ∧
      s.threads[i]? = some (.finalizing order csr domains) ∧ order.orderId = orderId := by
  have hnot : s.issued ≠ s.issued ++ [(orderId, certId)] := by simp
  cases e with
  | newOrder accountId identifiers notBefore notAfter w =>
    unfold AcmeServer.step at h
    dsimp only at h
    split at h
    · exact absurd h hnot
    · split_ifs at h
      · exact absurd h hnot
      · split at h
        · exact absurd h hnot
        · exact absurd h hnot
  | respond challengeId accountId =>
    unfold AcmeServer.step at h
    dsimp only at h
    split at h
    · exact absurd h hnot
    · exact absurd h hnot
  | finalize orderId csr =>
    unfold AcmeServer.step at h
    dsimp only at h
    split at h
    · exact absurd h hnot
    · exact absurd h hnot
  | proceed i w =>
    unfold AcmeServer.step at h
    dsimp only at h
    cases hi : s.threads[i]? with
    | none =>
      rw [hi] at h
      exact absurd h hnot
    | some t =>
      rw [hi] at h
      have hissued : (t.run w s.db).issued.toList = [(orderId, certId)] :=
        List.append_cancel_left h
      have hsome : (t.run w s.db).issued = some (orderId, certId) := by
        cases hrun : (t.run w s.db).issued with
        | none =>
          rw [hrun] at hissued
          cases hissued
        | some entry =>
          rw [hrun] at hissued
          exact congrArg some (List.head_eq_of_cons_eq hissued)
      obtain ⟨order, csr, domains, rfl, hname⟩ := issued_run hsome
      exact ⟨i, w, order, csr, domains, rfl, hi, hname⟩
  | accounts rows => exact absurd h hnot
  | nonces rows => exact absurd h hnot
  | certificates op => exact absurd h hnot
  | settings localDomains domains issuingCaId => exact absurd h hnot

end Steps

end AcmeServer

section Runs

open AcmeServer

variable {s : AcmeServer}

theorem founded_of_empty (horders : s.db.orders = ∅) (hauths : s.db.authorizations = ∅)
    (hthreads : s.threads = []) (hcompleted : s.completed = []) : s.Founded := by
  refine ⟨⟨?_, ?_, ?_, ?_⟩, ?_⟩
  · intro a ha
    exact absurd (hauths ▸ ha) (Registry.not_mem_empty a)
  · intro a ha
    exact absurd (hauths ▸ ha) (Registry.not_mem_empty a)
  · intro entry hentry
    exact absurd (hcompleted ▸ hentry) List.not_mem_nil
  · intro o ho
    exact absurd (horders ▸ ho) (Registry.not_mem_empty o)
  · intro t ht
    exact absurd (hthreads ▸ ht) List.not_mem_nil

variable [Sha256] [X509Library]

end Runs

section Sample

open AcmeServer

/-- An order of alice for one name, whose challenge the given account answers with its key. -/
def answeredBy (accountId thumbprint : String) : List AcmeEvent :=
  [.newOrder "alice" [⟨some "dns", some "www"⟩] none none sampleSurroundings,
    .proceed 0 sampleSurroundings, .respond "h1" accountId,
    .proceed 1 { sampleSurroundings with http := .ok ("t." ++ thumbprint) },
    .finalize "o1" (some (plainRequest "www"))]

def signing : AcmeEvent := .proceed 2 sampleSurroundings

end Sample

end CaManager
