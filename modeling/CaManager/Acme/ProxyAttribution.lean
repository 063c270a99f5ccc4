import CaManager.Acme.ProxyAddresses

/-!
# Which order a certificate belongs to

A client fetches its certificate by the address of the certificate alone. The row that is then
linked and marked is that of the pending order stored last. Other rows stay as they are.
-/

namespace CaManager

open Library

namespace ProxyAttribution

open AcmeProxyService

def IsFor (url : String) (o : ClientOrder) : Prop :=
  o.isProxyOrder = true ∧ o.upstreamOrderUrl = some url

instance (url : String) (o : ClientOrder) : Decidable (IsFor url o) :=
  inferInstanceAs (Decidable (_ ∧ _))

def Settled (certificateId : Option ℕ) (o : ClientOrder) : Prop :=
  o.status = "valid" ∧ ∀ id ∈ certificateId, o.certificateId = some id

/-- A fetched certificate settles a pending row of its order and changes nothing else. -/
structure Attributed (st st' : ClientStore) (url : String) (certificateId : Option ℕ) : Prop where
  others : ∀ o ∈ st.orders, ¬IsFor url o → st'.orders.get? o.id = some o
  own : (∃ o ∈ st.orders, IsFor url o ∧ o.status = "pending") →
    ∃ o ∈ st.orders, IsFor url o ∧ o.status = "pending" ∧
      (∃ o', st'.orders.get? o.id = some o' ∧ Settled certificateId o') ∧
      ∀ k ≠ o.id, st'.orders.get? k = st.orders.get? k

/-- The pending order that was stored last is that of the certificate, and its records can be
cleaned up. Or the order has no pending row any more, and nothing is written elsewhere: no other
order is pending, or the one stored last cannot be cleaned up and gets no other certificate. -/
def LatestIsOwn (st : ClientStore) (w : DnsWorld) (url : String) (certificateId : Option ℕ) : Prop :=
  (∃ o, st.latestOrder = some o ∧ IsFor url o ∧ canCleanUp st w o = true) ∨
    (∀ o ∈ st.orders, IsFor url o → o.status ≠ "pending") ∧
      ∀ o, st.latestOrder = some o →
        canCleanUp st w o = false ∧ linkCertificate certificateId o = o

section Rows

variable {st : ClientStore} {w : DnsWorld} {o : ClientOrder} {certificateId : Option ℕ} {k : ℕ}

theorem mem_pendingOrders :
    o ∈ st.pendingOrders ↔ o ∈ st.orders ∧ o.isProxyOrder = true ∧ o.status = "pending" := by
  simp [ClientStore.pendingOrders, Table.mem_select]

theorem latestOrder_pending (h : st.latestOrder = some o) :
    o ∈ st.orders ∧ o.isProxyOrder = true ∧ o.status = "pending" :=
  mem_pendingOrders.mp (mem_of_foldl (fun _ => rfl) (fun _ _ => ite_eq_or_eq _ _ _) h)

theorem get?_of_mem (h : o ∈ st.orders) : st.orders.get? o.id = some o :=
  Table.get?_eq_some_iff.mpr ⟨h, rfl⟩

theorem settleOrder_of_none (h : st.latestOrder = none) : settleOrder st w certificateId = st := by
  rw [settleOrder, h]

theorem get?_settleOrder_self (h : st.latestOrder = some o) :
    (settleOrder st w certificateId).orders.get? o.id =
      some (if canCleanUp st w o then completeOrder (linkCertificate certificateId o)
        else linkCertificate certificateId o) := by
  have hrow := get?_of_mem (latestOrder_pending h).1
  have hlinked : (st.setOrder o.id (linkCertificate certificateId)).orders.get? o.id =
      some (linkCertificate certificateId o) := Table.get?_update_self hrow
  have hclean : canCleanUp (st.setOrder o.id (linkCertificate certificateId)) w o =
      canCleanUp st w o := rfl
  rw [settleOrder, h]
  simp only [hclean]
  split_ifs
  · exact Table.get?_update_self hlinked
  · exact hlinked

theorem get?_settleOrder_of_ne (h : st.latestOrder = some o) (hk : o.id ≠ k) :
    (settleOrder st w certificateId).orders.get? k = st.orders.get? k := by
  have hlinked : (st.setOrder o.id (linkCertificate certificateId)).orders.get? k =
      st.orders.get? k := Table.get?_update_of_ne hk
  rw [settleOrder, h]
  simp only
  split_ifs
  · exact (Table.get?_update_of_ne hk).trans hlinked
  · exact hlinked

theorem settled_completeOrder : Settled certificateId
    (completeOrder (linkCertificate certificateId o)) := by
  refine ⟨rfl, fun id hid => ?_⟩
  rw [Option.mem_def.mp hid]
  rfl

theorem not_settled_linkCertificate (h : o.status = "pending") :
    ¬Settled certificateId (linkCertificate certificateId o) := by
  rintro ⟨hstatus, -⟩
  have hpending : (linkCertificate certificateId o).status = "pending" := h
  rw [hpending] at hstatus
  revert hstatus
  decide

end Rows

section Settlement

variable {st : ClientStore} {w : DnsWorld} {url : String} {certificateId : Option ℕ}

theorem latestIsOwn_of_settled {o : ClientOrder} (ho : o ∈ st.orders) (hfor : IsFor url o)
    (hpending : o.status = "pending")
    (h : ∃ o', (settleOrder st w certificateId).orders.get? o.id = some o' ∧
      Settled certificateId o') : LatestIsOwn st w url certificateId := by
  obtain ⟨o', ho', hsettled⟩ := h
  have hunchanged : o' ≠ o := by
    rintro rfl
    have hstatus := hpending.symm.trans hsettled.1
    revert hstatus
    decide
  cases hlatest : st.latestOrder with
  | none =>
    rw [settleOrder_of_none hlatest, get?_of_mem ho] at ho'
    exact absurd (Option.some.inj ho').symm hunchanged
  | some latest =>
    by_cases hid : latest.id = o.id
    · have hsame : latest = o :=
        Table.eq_of_key_eq (latestOrder_pending hlatest).1 ho hid
      subst hsame
      rw [get?_settleOrder_self hlatest] at ho'
      cases hclean : canCleanUp st w latest with
      | true => exact .inl ⟨latest, hlatest, hfor, hclean⟩
      | false =>
        rw [hclean] at ho'
        have hlinked : linkCertificate certificateId latest = o' := Option.some.inj ho'
        exact absurd (hlinked ▸ hsettled) (not_settled_linkCertificate hpending)
    · rw [get?_settleOrder_of_ne hlatest hid, get?_of_mem ho] at ho'
      exact absurd (Option.some.inj ho').symm hunchanged

theorem latestIsOwn_of_attributed
    (h : Attributed st (settleOrder st w certificateId) url certificateId) :
    LatestIsOwn st w url certificateId := by
  by_cases hpending : ∃ o ∈ st.orders, IsFor url o ∧ o.status = "pending"
  · obtain ⟨o, ho, hfor, hstatus, hsettled, -⟩ := h.own hpending
    exact latestIsOwn_of_settled ho hfor hstatus hsettled
  · refine .inr ⟨fun o ho hfor hstatus => hpending ⟨o, ho, hfor, hstatus⟩, ?_⟩
    intro latest hlatest
    obtain ⟨hmem, -, hstatus⟩ := latestOrder_pending hlatest
    have hforeign : ¬IsFor url latest := fun hfor => hpending ⟨latest, hmem, hfor, hstatus⟩
    have hkept := h.others latest hmem hforeign
    rw [get?_settleOrder_self hlatest] at hkept
    cases hclean : canCleanUp st w latest with
    | true =>
      rw [hclean] at hkept
      have hvalid : "valid" = "pending" :=
        (congrArg ClientOrder.status (Option.some.inj hkept)).trans hstatus
      exact absurd hvalid (by decide)
    | false =>
      rw [hclean] at hkept
      exact ⟨rfl, Option.some.inj hkept⟩

theorem attributed_of_latest {latest : ClientOrder} (hlatest : st.latestOrder = some latest)
    (hfor : IsFor url latest) (hclean : canCleanUp st w latest = true) :
    Attributed st (settleOrder st w certificateId) url certificateId := by
  obtain ⟨hmem, -, hstatus⟩ := latestOrder_pending hlatest
  constructor
  · intro o ho hforeign
    have hid : latest.id ≠ o.id := by
      intro hid
      exact hforeign (Table.eq_of_key_eq hmem ho hid ▸ hfor)
    rw [get?_settleOrder_of_ne hlatest hid, get?_of_mem ho]
  · intro _
    refine ⟨latest, hmem, hfor, hstatus, ⟨_, get?_settleOrder_self hlatest, ?_⟩, ?_⟩
    · rw [if_pos hclean]
      exact settled_completeOrder
    · exact fun k hk => get?_settleOrder_of_ne hlatest hk.symm

theorem attributed_of_quiet (hnone : ∀ o ∈ st.orders, IsFor url o → o.status ≠ "pending")
    (hquiet : ∀ o, st.latestOrder = some o →
      canCleanUp st w o = false ∧ linkCertificate certificateId o = o) :
    Attributed st (settleOrder st w certificateId) url certificateId := by
  constructor
  · intro o ho _
    cases hlatest : st.latestOrder with
    | none => rw [settleOrder_of_none hlatest, get?_of_mem ho]
    | some latest =>
      obtain ⟨hclean, hlinked⟩ := hquiet latest hlatest
      by_cases hid : latest.id = o.id
      · have hsame := Table.eq_of_key_eq (latestOrder_pending hlatest).1 ho hid
        subst hsame
        rw [get?_settleOrder_self hlatest, hclean, hlinked]
        rfl
      · rw [get?_settleOrder_of_ne hlatest hid, get?_of_mem ho]
  · rintro ⟨o, ho, hfor, hstatus⟩
    exact absurd hstatus (hnone o ho hfor)

theorem attributed_settleOrder_iff :
    Attributed st (settleOrder st w certificateId) url certificateId ↔
      LatestIsOwn st w url certificateId := by
  constructor
  · exact latestIsOwn_of_attributed
  · rintro (⟨latest, hlatest, hfor, hclean⟩ | ⟨hnone, hquiet⟩)
    · exact attributed_of_latest hlatest hfor hclean
    · exact attributed_of_quiet hnone hquiet

theorem attributed_store_iff {st' : ClientStore} (s : Store) :
    Attributed { st with store := s } st' url certificateId ↔
      Attributed st st' url certificateId :=
  ⟨fun h => ⟨h.others, h.own⟩, fun h => ⟨h.others, h.own⟩⟩

end Settlement

section Downloads

variable [X509Library] {st st' : ClientStore} {w : DnsWorld}

/-- What a download does to the rows, by what the upstream authority answers. -/
def Attributes (st st' : ClientStore) (url : String) (answer : SentChain) (refid : String) : Prop :=
  if answer.statusCode = 200 then
    Attributed st st' url (storeFetched st answer.chain refid).1
  else st'.orders = st.orders

theorem storeFetched_eq (st : ClientStore) (chain : Option (X509 × List X509)) (refid : String) :
    ∃ store, (storeFetched st chain refid).2 = { st with store } := by
  unfold storeFetched
  cases chain with
  | none => exact ⟨st.store, rfl⟩
  | some sent =>
    simp only
    split
    next store _ => exact ⟨store, rfl⟩
    next => exact ⟨st.store, rfl⟩

/-- A download settles the row of its own order and no other exactly if the pending order that
was stored last is that of the certificate, and can be cleaned up; or there is nothing left to
settle. -/
theorem attributes_iff {url certId refid : String} {answer : SentChain}
    (h : getCertificate st w certId answer refid = .ok st') :
    Attributes st st' url answer refid ↔
      (answer.statusCode = 200 →
        LatestIsOwn st w url (storeFetched st answer.chain refid).1) := by
  simp only [getCertificate, bind_eq_ok] at h
  obtain ⟨_, _, h⟩ := h
  unfold Attributes
  split_ifs at h ⊢ with hstatus
  · rw [pure_eq_ok] at h
    subst h
    obtain ⟨store, hstore⟩ := storeFetched_eq st answer.chain refid
    rw [hstore, ← attributed_store_iff store, attributed_settleOrder_iff]
    exact ⟨fun hown _ => hown, fun hown => hown hstatus⟩
  · rw [pure_eq_ok] at h
    exact iff_of_true (by rw [h]) fun h200 => absurd h200 hstatus

end Downloads

section Sample

def pendingOrder (id : ℕ) (url : String) (createdAt : Time) : ClientOrder :=
  { id, domains := [], isProxyOrder := true, upstreamOrderUrl := some url, createdAt }

def twoOrders : ClientStore :=
  { store := sampleStore
    orders :=
      ((∅ : Table ClientOrder).insert (pendingOrder 0 "u" 0)).insert (pendingOrder 0 "v" 1) }

def fetchedChain : SentChain := ⟨200, some (sampleCaCert, [])⟩

def noDns : DnsWorld := ⟨fun _ => .ok (), fun _ _ => .ok (true, "")⟩

theorem latestOrder_twoOrders : twoOrders.latestOrder = some (pendingOrder 2 "v" 1) := by
  decide +kernel

/-- The second client fetches its certificate. -/
theorem attributes_second : let _ := sampleLibrary
    ∃ st', getCertificate twoOrders noDns (encodeId "c") fetchedChain "r" = .ok st' ∧
      Attributes twoOrders st' "v" fetchedChain "r" := by
  intro _
  obtain ⟨st', h⟩ : ∃ st', getCertificate twoOrders noDns (encodeId "c") fetchedChain "r" =
      .ok st' := by
    rw [getCertificate, decodeId_encodeId]
    exact ⟨_, rfl⟩
  exact ⟨st', h, (attributes_iff h).mpr fun _ =>
    .inl ⟨pendingOrder 2 "v" 1, latestOrder_twoOrders, ⟨rfl, rfl⟩, rfl⟩⟩

/-- The first client fetches its certificate, and the order of the second is marked. -/
theorem certificate_misattributed : let _ := sampleLibrary
    ∃ st', getCertificate twoOrders noDns (encodeId "c") fetchedChain "r" = .ok st' ∧
      ¬Attributes twoOrders st' "u" fetchedChain "r" := by
  intro _
  obtain ⟨store, hstore⟩ := storeFetched_eq twoOrders fetchedChain.chain "r"
  refine ⟨settleOrder { twoOrders with store } noDns
    (storeFetched twoOrders fetchedChain.chain "r").1, ?_, ?_⟩
  · rw [getCertificate, decodeId_encodeId, ← hstore]
    rfl
  · intro h
    have hstatus : fetchedChain.statusCode = 200 := rfl
    rw [Attributes, if_pos hstatus] at h
    have hmem := (latestOrder_pending latestOrder_twoOrders).1
    have hkept := h.others _ hmem fun hfor => absurd hfor.2 (by decide)
    have hlatest : { twoOrders with store }.latestOrder = some (pendingOrder 2 "v" 1) :=
      latestOrder_twoOrders
    rw [get?_settleOrder_self hlatest] at hkept
    have hvalid : "valid" = "pending" := congrArg ClientOrder.status (Option.some.inj hkept)
    exact absurd hvalid (by decide)

end Sample

end ProxyAttribution

end CaManager
