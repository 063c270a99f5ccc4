import CaManager.Acme.Client
import CaManager.Library.Machines

/-!
# Renewal of certificates

Once a day the orders that are due are renewed: those that are marked as issued, whose expiry is
near and that have not failed too often. The expiry of an order is set when it is created, the mark
when it is finalized, and asking for its status takes over what the authority says. Renewing asks
the client for an order without an address to write to, which raises.
-/

namespace CaManager

open Library

namespace AcmeRenewal

open AcmeClientService

def defaultRenewalDays : ℤ := 30

def maxRenewalFailures : ℕ := 5

def isDue (now : Time) (o : ClientOrder) : Bool :=
  o.renewalEnabled && o.status = "issued" &&
    (match o.expiresAt with
      | some expiresAt => expiresAt ≤ now + days defaultRenewalDays
      | none => false) &&
    o.renewalFailures < maxRenewalFailures

def dueOrders (st : ClientStore) (now : Time) : List ClientOrder := st.orders.select (isDue now)

/-- What renewing an order raises. Registering gives its success, a message and the account. -/
def renewCertificate (st : ClientStore) (w : DnsWorld)
    (register : Option String → Bool × String × Option String) (o : ClientOrder) : String :=
  match o.dnsProviderId.bind st.providers.get? with
  | none => "DNS provider not found"
  | some provider =>
    match w.createProvider provider with
    | .error e => e.text
    | .ok _ =>
      let (success, _, message) := register o.accountUrl
      if success then
        "AcmeClientService.create_order() missing 1 required positional argument: 'email'"
      else "Account registration failed: " ++ message.getD "None"

def failedRenewal (message : String) (now : Time) (o : ClientOrder) : ClientOrder :=
  { o with
    renewalFailures := o.renewalFailures + 1
    lastErrorAt := some now
    errorMessage := some message }

def scheduledAcmeRenewal (st : ClientStore) (w : DnsWorld)
    (register : Option String → Bool × String × Option String) (now : Time) : ClientStore :=
  (dueOrders st now).foldl (fun st' o =>
    { st' with
      orders := st'.orders.update o.id (failedRenewal (renewCertificate st w register o) now) }) st

/-- The rows, and of every order the expiry that the authority gave with it and the number of
times it was renewed. -/
structure RenewalHost where
  rows : ClientStore
  expiry : ℕ → Option Time := fun _ => none
  attempts : ℕ → ℕ := fun _ => 0

inductive RenewalEvent
  | create (svc : AcmeClientService) (server : OrderServer) (domains : List String)
      (challengeType : String) (dnsProviderId : Option ℕ) (now : Time)
  | finalize (id : ℕ) (server : FinalizeServer) (key : KeyPem) (refid : String)
  | refresh (id : ℕ) (answer : Except PyError (Answer OrderObject))
  | renew (w : DnsWorld) (register : Option String → Bool × String × Option String) (now : Time)

def promisedExpiry (server : OrderServer) : Option Time := do
  let answer ← server.newOrder.toOption
  let data ← answer.json.toOption
  let expires ← data.expires
  expires.toOption

def refreshed (st : ClientStore) (id : ℕ) (answer : Except PyError (Answer OrderObject)) :
    ClientStore :=
  { st with orders := st.orders.update id fun o => (checkOrderStatus answer o).2 }

def finalized [X509Library] (st : ClientStore) (id : ℕ) (server : FinalizeServer) (key : KeyPem)
    (refid : String) : ClientStore :=
  match st.orders.get? id with
  | none => st
  | some o =>
    if o.status = "issued" then st
    else
      let result := (finalizeOrder st.store server key refid o).2
      { st with store := result.2, orders := st.orders.update id fun _ => result.1 }

section Steps

variable [Sha256] [X509Library]

def step (h : RenewalHost) : RenewalEvent → RenewalHost
  | .create svc server domains challengeType dnsProviderId now =>
    let created := svc.createOrder h.rows server domains challengeType dnsProviderId now
    { h with
      rows := created.2
      expiry := Function.update h.expiry h.rows.orders.nextKey (promisedExpiry server)
      attempts := Function.update h.attempts h.rows.orders.nextKey 0 }
  | .finalize id server key refid => { h with rows := finalized h.rows id server key refid }
  | .refresh id answer => { h with rows := refreshed h.rows id answer }
  | .renew w register now =>
    { h with
      rows := scheduledAcmeRenewal h.rows w register now
      attempts := fun k =>
        if k ∈ (dueOrders h.rows now).map ClientOrder.id then h.attempts k + 1
        else h.attempts k }

end Steps

def certificateExpiry (st : ClientStore) (o : ClientOrder) : Option Time :=
  (o.certificateId.bind st.store.certificates.get?).bind Certificate.validTo

/-- The daily task selects, of the orders with a certificate that are to be renewed, those whose
certificate expires in time, and asking for a status makes no order ineligible. -/
def SelectsRightly (h : RenewalHost) : RenewalEvent → Prop
  | .renew _ _ now => ∀ o ∈ h.rows.orders, o.renewalEnabled = true →
      ∀ t, certificateExpiry h.rows o = some t →
        (o ∈ dueOrders h.rows now ↔ t ≤ now + days defaultRenewalDays)
  | .refresh id answer => ∀ o, h.rows.orders.get? id = some o →
      ∀ now, isDue now o = true → isDue now (checkOrderStatus answer o).2 = true
  | _ => True

def KeepsIssued (answer : Except PyError (Answer OrderObject)) : Prop :=
  ∀ a data status, answer = .ok a → a.statusCode = 200 → a.json = .ok data →
    data.status = some status → status = "issued"

/-- When the daily task runs, the order of a certificate expires in time and was renewed fewer than
five times exactly if the certificate expires in time; and the status of an issued order that may
still be renewed is only asked for when nothing else comes back. -/
def ExpiriesAgree (h : RenewalHost) : RenewalEvent → Prop
  | .renew _ _ now => ∀ o ∈ h.rows.orders, o.renewalEnabled = true →
      ∀ t, certificateExpiry h.rows o = some t →
        ((∃ e, h.expiry o.id = some e ∧ e ≤ now + days defaultRenewalDays) ∧
          h.attempts o.id < maxRenewalFailures ↔ t ≤ now + days defaultRenewalDays)
  | .refresh id answer => ∀ o, h.rows.orders.get? id = some o → o.renewalEnabled = true →
      o.status = "issued" → h.attempts o.id < maxRenewalFailures → KeepsIssued answer
  | _ => True

/-- What holds of an order in a run: its expiry is the one that came with it, its failures are its
renewals, and with a certificate it is marked as issued unless it has failed too often. -/
structure Tracked (h : RenewalHost) (o : ClientOrder) : Prop where
  expiry : o.expiresAt = h.expiry o.id
  dated : (h.expiry o.id).isSome = true
  attempts : o.renewalFailures = h.attempts o.id
  issued : o.certificateId.isSome = true → o.renewalEnabled = true →
    o.status = "issued" ∨ maxRenewalFailures ≤ h.attempts o.id

def AllTracked (h : RenewalHost) : Prop := ∀ o ∈ h.rows.orders, Tracked h o

section Rows

/-- Two states of an order that differ in nothing that its renewal depends on but the status and
the certificate. -/
structure SameRenewal (o o' : ClientOrder) : Prop where
  id : o'.id = o.id
  expiresAt : o'.expiresAt = o.expiresAt
  renewalFailures : o'.renewalFailures = o.renewalFailures
  renewalEnabled : o'.renewalEnabled = o.renewalEnabled

theorem SameRenewal.refl (o : ClientOrder) : SameRenewal o o := ⟨rfl, rfl, rfl, rfl⟩

theorem SameRenewal.trans {o o' o'' : ClientOrder} (h : SameRenewal o o')
    (h' : SameRenewal o' o'') : SameRenewal o o'' :=
  ⟨h'.id.trans h.id, h'.expiresAt.trans h.expiresAt,
    h'.renewalFailures.trans h.renewalFailures, h'.renewalEnabled.trans h.renewalEnabled⟩

theorem sameRenewal_checkOrderStatus (answer : Except PyError (Answer OrderObject))
    (o : ClientOrder) : SameRenewal o (checkOrderStatus answer o).2 ∧
      (checkOrderStatus answer o).2.certificateId = o.certificateId := by
  unfold checkOrderStatus
  cases answer with
  | error e => exact ⟨.refl o, rfl⟩
  | ok a =>
    simp only
    split_ifs
    · cases a.json with
      | error e => exact ⟨.refl o, rfl⟩
      | ok data => exact ⟨⟨rfl, rfl, rfl, rfl⟩, rfl⟩
    · exact ⟨.refl o, rfl⟩

theorem sameRenewal_pollCertificate (poll : ℕ → Except PyError (Answer OrderObject)) (n : ℕ)
    (data : OrderObject) (o : ClientOrder) :
    SameRenewal o (pollCertificate poll n data o).2 ∧
      (pollCertificate poll n data o).2.certificateId = o.certificateId := by
  induction n generalizing data o with
  | zero => exact ⟨.refl o, rfl⟩
  | succ n ih =>
    unfold pollCertificate
    obtain ⟨hsame, hcertificate⟩ := sameRenewal_checkOrderStatus (poll n) o
    split_ifs
    · exact ⟨.refl o, rfl⟩
    · simp only
      split_ifs
      · exact ⟨hsame, hcertificate⟩
      · obtain ⟨hrest, hrestCertificate⟩ :=
          ih (checkOrderStatus (poll n) o).1.2 (checkOrderStatus (poll n) o).2
        exact ⟨hsame.trans hrest, hrestCertificate.trans hcertificate⟩

def reached : Finalized → ClientOrder
  | .refused _ o => o
  | .raised _ o => o
  | .issued _ o _ => o

variable [X509Library]

theorem reached_downloadIssued (st : Store) (server : FinalizeServer) (domain : String)
    (key : KeyPem) (refid : String) (data : OrderObject) (o : ClientOrder) :
    reached (downloadIssued st server domain key refid data o) = o := by
  unfold downloadIssued
  split_ifs
  · cases server.download with
    | error e => rfl
    | ok answer =>
      simp only
      split_ifs
      · obtain ⟨id, st'⟩ := importIssued st answer domain key refid
        cases id with
        | none => rfl
        | some id => rfl
      · rfl
  · rfl

theorem sameRenewal_finalizeReady (st : Store) (server : FinalizeServer) (key : KeyPem)
    (refid : String) (o : ClientOrder) :
    SameRenewal o (reached (finalizeReady st server key refid o)) ∧
      (reached (finalizeReady st server key refid o)).certificateId = o.certificateId := by
  unfold finalizeReady
  cases o.domains with
  | nil => exact ⟨.refl o, rfl⟩
  | cons domain rest =>
    cases server.finalize with
    | error e => exact ⟨.refl o, rfl⟩
    | ok answer =>
      simp only
      split_ifs
      · cases answer.json with
        | error e => exact ⟨.refl o, rfl⟩
        | ok data =>
          simp only
          have hstart : SameRenewal o (processing data o) := ⟨rfl, rfl, rfl, rfl⟩
          have hpoll := sameRenewal_pollCertificate server.poll 10 data (processing data o)
          rcases hlast : pollCertificate server.poll 10 data (processing data o) with ⟨last, o'⟩
          rw [hlast] at hpoll
          cases last with
          | none => exact ⟨hstart.trans hpoll.1, hpoll.2⟩
          | some last =>
            simp only [reached_downloadIssued]
            exact ⟨hstart.trans hpoll.1, hpoll.2⟩
      · cases answer.detail with
        | error e => exact ⟨.refl o, rfl⟩
        | ok detail => exact ⟨.refl o, rfl⟩

theorem sameRenewal_finalizeOrder (st : Store) (server : FinalizeServer) (key : KeyPem)
    (refid : String) (o : ClientOrder) :
    SameRenewal o (finalizeOrder st server key refid o).2.1 ∧
      ((finalizeOrder st server key refid o).2.1.certificateId = o.certificateId ∨
        (finalizeOrder st server key refid o).2.1.status = "issued") := by
  unfold finalizeOrder
  obtain ⟨hsame, hcertificate⟩ := sameRenewal_checkOrderStatus server.refresh o
  simp only
  split_ifs
  · obtain ⟨hready, hreadyCertificate⟩ :=
      sameRenewal_finalizeReady st server key refid (checkOrderStatus server.refresh o).2
    cases hresult : finalizeReady st server key refid (checkOrderStatus server.refresh o).2 with
    | refused message o' =>
      rw [hresult] at hready hreadyCertificate
      exact ⟨hsame.trans hready, .inl (hreadyCertificate.trans hcertificate)⟩
    | raised e o' =>
      rw [hresult] at hready hreadyCertificate
      have herror : SameRenewal o' { o' with status := "error", errorMessage := some e.text } :=
        ⟨rfl, rfl, rfl, rfl⟩
      exact ⟨(hsame.trans hready).trans herror, .inl (hreadyCertificate.trans hcertificate)⟩
    | issued id o' st' =>
      rw [hresult] at hready
      have hissued : SameRenewal o' { o' with certificateId := some id, status := "issued" } :=
        ⟨rfl, rfl, rfl, rfl⟩
      exact ⟨(hsame.trans hready).trans hissued, .inr rfl⟩
  · exact ⟨hsame, .inl hcertificate⟩

end Rows

section Runs

theorem isDue_iff {now : Time} {o : ClientOrder} :
    isDue now o = true ↔ o.renewalEnabled = true ∧ o.status = "issued" ∧
      (∃ e, o.expiresAt = some e ∧ e ≤ now + days defaultRenewalDays) ∧
      o.renewalFailures < maxRenewalFailures := by
  unfold isDue
  cases o.expiresAt with
  | none => simp
  | some e => simp [and_assoc]

theorem mem_dueOrders {st : ClientStore} {now : Time} {o : ClientOrder} :
    o ∈ dueOrders st now ↔ o ∈ st.orders ∧ isDue now o = true :=
  Table.mem_select

theorem orders_scheduledAcmeRenewal (st : ClientStore) (w : DnsWorld)
    (register : Option String → Bool × String × Option String) (now : Time) :
    (scheduledAcmeRenewal st w register now).orders = (dueOrders st now).foldl (fun t o =>
      t.update o.id (failedRenewal (renewCertificate st w register o) now)) st.orders := by
  have hfold : ∀ (os : List ClientOrder) (st' : ClientStore),
      (os.foldl (fun st' o => { st' with
        orders := st'.orders.update o.id
          (failedRenewal (renewCertificate st w register o) now) }) st').orders =
      os.foldl (fun t o =>
        t.update o.id (failedRenewal (renewCertificate st w register o) now)) st'.orders := by
    intro os
    induction os with
    | nil => exact fun _ => rfl
    | cons o os ih => exact fun st' => ih _
  exact hfold _ st

theorem nodup_dueOrders (st : ClientStore) (now : Time) :
    ((dueOrders st now).map Keyed.key).Nodup :=
  (st.orders.sorted.sublist (List.filter_sublist.map Keyed.key)).imp fun hlt => Nat.ne_of_lt hlt

theorem exists_of_mem_scheduledAcmeRenewal {st : ClientStore} {w : DnsWorld}
    {register : Option String → Bool × String × Option String} {now : Time} {o' : ClientOrder}
    (h : o' ∈ (scheduledAcmeRenewal st w register now).orders) :
    ∃ o ∈ st.orders, (o.id ∉ (dueOrders st now).map ClientOrder.id ∧ o' = o) ∨
      (o.id ∈ (dueOrders st now).map ClientOrder.id ∧
        ∃ message, o' = failedRenewal message now o) := by
  rw [orders_scheduledAcmeRenewal] at h
  obtain ⟨o, ho, ⟨hnot, heq⟩ | ⟨a, ha, hkey, heq⟩⟩ :=
    Table.exists_of_mem_foldl_update (nodup_dueOrders st now) h
  · exact ⟨o, ho, .inl ⟨hnot, heq⟩⟩
  · exact ⟨o, ho, .inr ⟨List.mem_map.mpr ⟨a, ha, hkey⟩, _, heq⟩⟩

theorem Tracked.of_same {h h' : RenewalHost} {o o' : ClientOrder} (ht : Tracked h o)
    (hsame : SameRenewal o o') (hexpiry : h'.expiry o.id = h.expiry o.id)
    (hattempts : h'.attempts o.id = h.attempts o.id)
    (hissued : o'.certificateId.isSome = true → o'.renewalEnabled = true →
      o'.status = "issued" ∨ maxRenewalFailures ≤ h.attempts o.id) : Tracked h' o' where
  expiry := by rw [hsame.expiresAt, hsame.id, hexpiry, ht.expiry]
  dated := by rw [hsame.id, hexpiry]; exact ht.dated
  attempts := by rw [hsame.renewalFailures, hsame.id, hattempts, ht.attempts]
  issued := by rw [hsame.id, hattempts]; exact hissued

theorem exists_of_placeOrder [Sha256] {svc : AcmeClientService} {server : OrderServer}
    {domains : List String} {challengeType : String} {dnsProviderId : Option ℕ} {now : Time}
    {order : ClientOrder}
    (h : svc.placeOrder server domains challengeType dnsProviderId now = .ok order) :
    ∃ t, promisedExpiry server = some t ∧ order.expiresAt = some t ∧ order.renewalFailures = 0 ∧
      order.certificateId = none := by
  simp only [placeOrder, bind_eq_ok, mapError_eq_ok] at h
  obtain ⟨_, _, _, _, answer, hanswer, h⟩ := h
  split_ifs at h with hstatus
  · simp only [bind_eq_ok, mapError_eq_ok, orderRow, orThrow_eq_ok, pure_eq_ok] at h
    obtain ⟨data, hjson, expires, hexpires, t, ht, entries, hentries, rfl⟩ := h
    refine ⟨t, ?_, rfl, rfl, rfl⟩
    simp [promisedExpiry, hanswer, hjson, hexpires, ht, Except.toOption]
  · simp only [refusal, bind_eq_ok] at h
    obtain ⟨_, _, h⟩ := h
    cases h

theorem allTracked_create [Sha256] [X509Library] {h : RenewalHost} (hall : AllTracked h)
    (svc : AcmeClientService) (server : OrderServer) (domains : List String)
    (challengeType : String) (dnsProviderId : Option ℕ) (now : Time) :
    AllTracked (step h (.create svc server domains challengeType dnsProviderId now)) := by
  have hold : ∀ o ∈ h.rows.orders,
      Tracked (step h (.create svc server domains challengeType dnsProviderId now)) o := by
    intro o ho
    have hne : o.id ≠ h.rows.orders.nextKey := Nat.ne_of_lt (Table.key_lt_nextKey ho)
    exact (hall o ho).of_same (.refl o) (Function.update_of_ne hne _ _)
      (Function.update_of_ne hne _ _) (hall o ho).issued
  intro o ho
  cases hplaced : svc.placeOrder server domains challengeType dnsProviderId now with
  | error e =>
    rw [step, createOrder, hplaced] at ho
    exact hold o ho
  | ok order =>
    have hrows : o ∈ h.rows.orders.insert order := by
      rw [step, createOrder, hplaced] at ho
      exact ho
    rcases Table.mem_insert.mp hrows with ho | rfl
    · exact hold o ho
    · obtain ⟨t, hpromised, hexpires, hfailures, hcertificate⟩ := exists_of_placeOrder hplaced
      have hexpiry : (step h (.create svc server domains challengeType dnsProviderId now)).expiry
          h.rows.orders.nextKey = some t := (Function.update_self _ _ _).trans hpromised
      have hattempts : (step h (.create svc server domains challengeType dnsProviderId
          now)).attempts h.rows.orders.nextKey = 0 := Function.update_self _ _ _
      exact ⟨hexpires.trans hexpiry.symm, by exact hexpiry ▸ rfl, hfailures.trans hattempts.symm,
        fun hsome => by
          rw [show (Keyed.withKey h.rows.orders.nextKey order).certificateId = none from
            hcertificate] at hsome
          cases hsome⟩

theorem allTracked_update {h h' : RenewalHost} (hall : AllTracked h) {id : ℕ}
    {f : ClientOrder → ClientOrder} (hrows : h'.rows.orders = h.rows.orders.update id f)
    (hexpiry : h'.expiry = h.expiry) (hattempts : h'.attempts = h.attempts)
    (hsame : ∀ o, h.rows.orders.get? id = some o → SameRenewal o (f o))
    (hissued : ∀ o, h.rows.orders.get? id = some o → (f o).certificateId.isSome = true →
      (f o).renewalEnabled = true → (f o).status = "issued" ∨
        maxRenewalFailures ≤ h.attempts o.id) : AllTracked h' := by
  intro o' ho'
  rw [hrows] at ho'
  rcases Table.mem_update.mp ho' with ⟨ho, -⟩ | ⟨o, ho, rfl⟩
  · exact (hall o' ho).of_same (.refl o') (by rw [hexpiry]) (by rw [hattempts]) (hall o' ho).issued
  · have hkey : (f o).id = id := (hsame o ho).id.trans (Table.key_of_get? ho)
    have hrow : Keyed.withKey id (f o) = f o := by
      rw [← hkey]
      exact Keyed.withKey_key (f o)
    rw [hrow]
    exact (hall o (Table.mem_of_get? ho)).of_same (hsame o ho) (by rw [hexpiry]) (by rw [hattempts])
      (hissued o ho)

theorem le_threshold (t : ℤ) : t ≤ t + days defaultRenewalDays := by
  unfold days defaultRenewalDays
  omega

theorem status_checkOrderStatus {answer : Except PyError (Answer OrderObject)} {o : ClientOrder}
    (hissued : o.status = "issued") (hkeeps : KeepsIssued answer) :
    (checkOrderStatus answer o).2.status = "issued" := by
  unfold checkOrderStatus
  cases answer with
  | error e => exact hissued
  | ok a =>
    simp only
    split_ifs with hstatus
    · cases hjson : a.json with
      | error e => exact hissued
      | ok data =>
        cases hdata : data.status with
        | none => simpa [hdata] using hissued
        | some status => simpa [hdata] using hkeeps a data status rfl hstatus hjson hdata
    · exact hissued

theorem keepsIssued_of_status {answer : Except PyError (Answer OrderObject)} {o : ClientOrder}
    (h : (checkOrderStatus answer o).2.status = "issued") : KeepsIssued answer := by
  rintro a data status rfl hstatus hjson hdata
  simpa [checkOrderStatus, hstatus, hjson, hdata] using h

theorem isDue_of_tracked {h : RenewalHost} {o : ClientOrder} (ht : Tracked h o) {now t : Time}
    (henabled : o.renewalEnabled = true) (ht' : certificateExpiry h.rows o = some t) :
    isDue now o = true ↔ (∃ e, h.expiry o.id = some e ∧ e ≤ now + days defaultRenewalDays) ∧
      h.attempts o.id < maxRenewalFailures := by
  have hsome : o.certificateId.isSome = true := by
    cases hid : o.certificateId with
    | none => simp [certificateExpiry, hid] at ht'
    | some id => rfl
  rw [isDue_iff, ht.expiry, ht.attempts]
  constructor
  · exact fun hdue => hdue.2.2
  · intro hdue
    have hissued := (ht.issued hsome henabled).resolve_right (Nat.not_le.mpr hdue.2)
    exact ⟨henabled, hissued, hdue⟩

theorem selectsRightly_iff {h : RenewalHost} (e : RenewalEvent) (hall : AllTracked h) :
    SelectsRightly h e ↔ ExpiriesAgree h e := by
  cases e with
  | create svc server domains challengeType dnsProviderId now => exact Iff.rfl
  | finalize id server key refid => exact Iff.rfl
  | renew w register now =>
    refine forall₂_congr fun o ho => forall_congr' fun henabled => forall₂_congr fun t ht => ?_
    rw [mem_dueOrders, isDue_of_tracked (hall o ho) henabled ht, and_iff_right ho]
  | refresh id answer =>
    refine forall₂_congr fun o ho => ?_
    have htracked := hall o (Table.mem_of_get? ho)
    obtain ⟨hsame, -⟩ := sameRenewal_checkOrderStatus answer o
    constructor
    · intro hkeeps henabled hissued hfew
      obtain ⟨expiresAt, hexpiry⟩ := Option.isSome_iff_exists.mp htracked.dated
      have hdue := hkeeps expiresAt (isDue_iff.mpr ⟨henabled, hissued,
        ⟨expiresAt, htracked.expiry.trans hexpiry, le_threshold expiresAt⟩, htracked.attempts ▸ hfew⟩)
      exact keepsIssued_of_status (isDue_iff.mp hdue).2.1
    · intro hagree now hdue
      obtain ⟨henabled, hissued, hexpires, hfew⟩ := isDue_iff.mp hdue
      have hkeeps := hagree henabled hissued (htracked.attempts ▸ hfew)
      rw [isDue_iff, hsame.renewalEnabled, hsame.expiresAt, hsame.renewalFailures]
      exact ⟨henabled, status_checkOrderStatus hissued hkeeps, hexpires, hfew⟩

variable [Sha256] [X509Library] {h : RenewalHost}

theorem allTracked_finalize (hall : AllTracked h) (id : ℕ) (server : FinalizeServer)
    (key : KeyPem) (refid : String) : AllTracked (step h (.finalize id server key refid)) := by
  cases hrow : h.rows.orders.get? id with
  | none =>
    have hrows : (step h (.finalize id server key refid)) = h := by
      simp only [step, finalized, hrow]
    rw [hrows]
    exact hall
  | some o =>
    by_cases hissued : o.status = "issued"
    · have hrows : (step h (.finalize id server key refid)) = h := by
        simp only [step, finalized, hrow, if_pos hissued]
      rw [hrows]
      exact hall
    · obtain ⟨hsame, hcertificate⟩ := sameRenewal_finalizeOrder h.rows.store server key refid o
      have hrows : (step h (.finalize id server key refid)).rows.orders =
          h.rows.orders.update id fun _ =>
            (finalizeOrder h.rows.store server key refid o).2.1 := by
        simp only [step, finalized, hrow, if_neg hissued]
      refine allTracked_update hall hrows rfl rfl ?_ ?_
      · intro o' ho'
        cases hrow.symm.trans ho'
        exact hsame
      · intro o' ho' hsome henabled
        cases hrow.symm.trans ho'
        rcases hcertificate with hkept | hmarked
        · rw [hkept] at hsome
          rw [hsame.renewalEnabled] at henabled
          have htracked := (hall o (Table.mem_of_get? hrow)).issued hsome henabled
          exact .inr (htracked.resolve_left hissued)
        · exact .inl hmarked

theorem allTracked_refresh (hall : AllTracked h) {id : ℕ}
    {answer : Except PyError (Answer OrderObject)}
    (hagree : ExpiriesAgree h (.refresh id answer)) :
    AllTracked (step h (.refresh id answer)) := by
  refine allTracked_update hall rfl rfl rfl (fun o _ => (sameRenewal_checkOrderStatus answer o).1)
    ?_
  intro o ho hsome henabled
  obtain ⟨hsame, hcertificate⟩ := sameRenewal_checkOrderStatus answer o
  rw [hcertificate] at hsome
  rw [hsame.renewalEnabled] at henabled
  by_cases hmany : maxRenewalFailures ≤ h.attempts o.id
  · exact .inr hmany
  · have hissued := ((hall o (Table.mem_of_get? ho)).issued hsome henabled).resolve_right hmany
    exact .inl (status_checkOrderStatus hissued
      (hagree o ho henabled hissued (Nat.lt_of_not_le hmany)))

theorem allTracked_renew (hall : AllTracked h) (w : DnsWorld)
    (register : Option String → Bool × String × Option String) (now : Time) :
    AllTracked (step h (.renew w register now)) := by
  intro o' ho'
  obtain ⟨o, ho, ⟨hnot, rfl⟩ | ⟨hdue, message, rfl⟩⟩ := exists_of_mem_scheduledAcmeRenewal ho'
  · exact (hall o' ho).of_same (.refl o') rfl (if_neg hnot) (hall o' ho).issued
  · have htracked := hall o ho
    have hattempts : (step h (.renew w register now)).attempts o.id = h.attempts o.id + 1 :=
      if_pos hdue
    refine ⟨htracked.expiry, htracked.dated, ?_, ?_⟩
    · exact (congrArg (· + 1) htracked.attempts).trans hattempts.symm
    · intro hsome henabled
      refine (htracked.issued hsome henabled).imp_right fun hmany => ?_
      change maxRenewalFailures ≤ (step h (.renew w register now)).attempts o.id
      omega

theorem allTracked_step (e : RenewalEvent) (hall : AllTracked h) (hagree : ExpiriesAgree h e) :
    AllTracked (step h e) := by
  cases e with
  | create svc server domains challengeType dnsProviderId now =>
    exact allTracked_create hall svc server domains challengeType dnsProviderId now
  | finalize id server key refid => exact allTracked_finalize hall id server key refid
  | refresh id answer => exact allTracked_refresh hall hagree
  | renew w register now => exact allTracked_renew hall w register now

/-- In every run from no orders, the daily task selects what it should and no status request makes
an order ineligible, exactly if in every step the expiry of orders agrees with that of their
certificates, no order has been renewed too often, and no status replaces that of an issued order. -/
theorem renewals_run_iff (s : Store) (domains : List (String × ℕ)) (providers : Table DnsProvider)
    (es : List RenewalEvent) :
    Meets step SelectsRightly { rows := ⟨s, ∅, domains, providers⟩ } es ↔
      Meets step ExpiriesAgree { rows := ⟨s, ∅, domains, providers⟩ } es :=
  meets_iff_of_invariant (I := AllTracked) (fun _ e hall => selectsRightly_iff e hall)
    (fun _ e hall hagree => allTracked_step e hall hagree)
    fun o ho => absurd ho (Table.not_mem_empty o)

end Runs

section Sample

@[reducible] def spelledDigests : Sha256 := ⟨id⟩

def weekServer : OrderServer :=
  { account := (true, ""), directory := .ok ()
    newOrder := .ok { statusCode := 201, json := .ok { expires := some (.ok (days 7)) } }
    authz := fun _ => .error (.unloadable "answer") }

def quarterCert : X509 := { sampleCaCert with notAfter := days 90 }

def readyServer : FinalizeServer :=
  { refresh := .ok { statusCode := 200, json := .ok { status := some "ready" } }
    finalize := .ok
      { statusCode := 200, json := .ok { status := some "valid", certificate := some "c" } }
    poll := fun _ => .error (.unloadable "answer")
    download := .ok { statusCode := 200, json := .ok (quarterCert, []) } }

def issuing : List RenewalEvent :=
  [.create ⟨"staging", some "account", "k"⟩ weekServer ["example.com"] "dns-01" none 0,
    .finalize 1 readyServer ⟨sampleKey⟩ "r"]

def dailyTask : RenewalEvent :=
  .renew ⟨fun _ => .ok (), fun _ _ => .ok (true, "")⟩ (fun _ => (true, "", none)) (days 1)

def nothingOrdered : RenewalHost := { rows := ⟨sampleStore, ∅, [], ∅⟩ }

/-- A new certificate is selected on its first day, because the order it came from expires in a
week. -/
theorem renewed_on_first_day : let _ := spelledDigests; let _ := sampleLibrary
    ¬Meets step SelectsRightly nothingOrdered (issuing ++ [dailyTask]) := by
  intro _ _ h
  have hrow : ∃ o ∈ (run step nothingOrdered issuing).rows.orders.rows,
      o.renewalEnabled = true ∧
        certificateExpiry (run step nothingOrdered issuing).rows o = some (days 90) ∧
        isDue (days 1) o = true := by
    decide +kernel
  obtain ⟨o, ho, henabled, hexpiry, hdue⟩ := hrow
  have hselects := ((meets_append _ _ _ _ _).mp h).2.1
  have hselected := (hselects o ho henabled (days 90) hexpiry).mp (mem_dueOrders.mpr ⟨ho, hdue⟩)
  exact absurd hselected (by decide)

end Sample

end AcmeRenewal

end CaManager
