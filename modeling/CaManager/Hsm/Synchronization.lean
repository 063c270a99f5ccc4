import CaManager.Hsm.Service

/-!
# The table of keys and the modules

What a synchronization does to the rows of a provider and of the others, and what keeps the rows
and the keys of a module together from then on.
-/

namespace CaManager

open Library

namespace HsmService

section Rows

variable {s : HsmSite} {keys : Table HsmKey} {p : ℕ} {info : HsmKeyInfo}
  {infos : List HsmKeyInfo} {key : HsmKey} {identifier : String}

theorem mem_recorded : identifier ∈ recorded s p ↔
    ∃ key ∈ s.keys, key.providerId = p ∧ key.keyIdentifier = identifier := by
  simp [recorded, keysOf, Table.mem_select, and_assoc]

theorem mem_addKey : key ∈ addKey p keys info ↔
    key ∈ keys ∨ key = { info with id := keys.nextKey, providerId := p } :=
  Table.mem_insert

theorem mem_addKey_self :
    ({ info with id := keys.nextKey, providerId := p } : HsmKey) ∈ addKey p keys info :=
  mem_addKey.mpr (.inr rfl)

theorem unique_addKey (h : Unique keys)
    (hnew : ∀ key ∈ keys, key.providerId = p → key.keyIdentifier ≠ info.keyIdentifier) :
    Unique (addKey p keys info) := by
  intro key hkey key' hkey' hprovider hidentifier
  rcases mem_addKey.mp hkey with hkey | rfl
  · rcases mem_addKey.mp hkey' with hkey' | rfl
    · exact h key hkey key' hkey' hprovider hidentifier
    · exact absurd hidentifier (hnew key hkey hprovider)
  · rcases mem_addKey.mp hkey' with hkey' | rfl
    · exact absurd hidentifier.symm (hnew key' hkey' hprovider.symm)
    · rfl

theorem unique_foldl (h : Unique keys) (hnodup : (identifiers infos).Nodup)
    (hnew : ∀ info ∈ infos, ∀ key ∈ keys, key.providerId = p →
      key.keyIdentifier ≠ info.keyIdentifier) :
    Unique (infos.foldl (addKey p) keys) := by
  induction infos generalizing keys with
  | nil => exact h
  | cons info infos ih =>
    obtain ⟨hnotMem, hnodup⟩ := List.nodup_cons.mp hnodup
    apply ih (unique_addKey h (hnew info List.mem_cons_self)) hnodup
    intro info' hinfo' key hkey hprovider
    rcases mem_addKey.mp hkey with hkey | rfl
    · exact hnew info' (List.mem_cons_of_mem _ hinfo') key hkey hprovider
    · intro heq
      exact hnotMem (List.mem_map.mpr ⟨info', hinfo', heq.symm⟩)

theorem mem_foldl_of_mem (h : key ∈ keys) : key ∈ infos.foldl (addKey p) keys := by
  induction infos generalizing keys with
  | nil => exact h
  | cons info infos ih => exact ih (mem_addKey.mpr (.inl h))

theorem mem_of_mem_foldl (h : key ∈ infos.foldl (addKey p) keys) :
    key ∈ keys ∨ key.providerId = p ∧ key.keyIdentifier ∈ identifiers infos := by
  induction infos generalizing keys with
  | nil => exact .inl h
  | cons info infos ih =>
    rcases ih h with hkey | ⟨hprovider, hmem⟩
    · rcases mem_addKey.mp hkey with hkey | rfl
      · exact .inl hkey
      · exact .inr ⟨rfl, List.mem_cons_self⟩
    · exact .inr ⟨hprovider, List.mem_cons_of_mem _ hmem⟩

theorem exists_of_foldl (h : identifier ∈ identifiers infos) :
    ∃ key ∈ infos.foldl (addKey p) keys, key.providerId = p ∧ key.keyIdentifier = identifier := by
  induction infos generalizing keys with
  | nil => cases h
  | cons info infos ih =>
    rcases List.mem_cons.mp h with rfl | h
    · have hfold : _ ∈ infos.foldl (addKey p) (addKey p keys info) :=
        mem_foldl_of_mem mem_addKey_self
      exact ⟨_, hfold, rfl, rfl⟩
    · exact ih h

end Rows

section Synced

variable {s s' : HsmSite} {p : ℕ} {call : HsmCall} {counts : SyncCounts} {key : HsmKey}
  {identifier : String}

theorem mem_newKeys {info : HsmKeyInfo} : info ∈ newKeys s p ↔
    info ∈ s.modules p ∧ info.keyIdentifier ∉ recorded s p := by
  simp [newKeys]

theorem mem_goneKeys : key ∈ goneKeys s p ↔
    key ∈ s.keys ∧ key.providerId = p ∧ key.keyIdentifier ∉ identifiers (s.modules p) := by
  simp [goneKeys, keysOf, Table.mem_select, and_assoc]

theorem mem_synced : key ∈ (synced s p).keys ↔
    key ∈ (newKeys s p).foldl (addKey p) s.keys ∧ key ∉ goneKeys s p := by
  simp [synced, Table.mem_deleteWhere]

theorem mem_synced_of_mem (h : key ∈ s.keys) : key ∈ (synced s p).keys ↔
    (key.providerId = p → key.keyIdentifier ∈ identifiers (s.modules p)) := by
  rw [mem_synced, and_iff_right (mem_foldl_of_mem h), mem_goneKeys, and_iff_right h]
  simp

theorem mem_of_mem_synced (h : key ∈ (synced s p).keys) : key ∈ s.keys ∨ key.providerId = p :=
  (mem_of_mem_foldl (mem_synced.mp h).1).imp_right And.left

theorem mem_recorded_synced :
    identifier ∈ recorded (synced s p) p ↔ identifier ∈ identifiers (s.modules p) := by
  rw [mem_recorded]
  constructor
  · rintro ⟨key, hkey, hprovider, rfl⟩
    rcases mem_of_mem_foldl (mem_synced.mp hkey).1 with hmem | ⟨_, hnew⟩
    · exact (mem_synced_of_mem hmem).mp hkey hprovider
    · obtain ⟨info, hinfo, heq⟩ := List.mem_map.mp hnew
      exact heq ▸ List.mem_map_of_mem (mem_newKeys.mp hinfo).1
  · intro hlisted
    by_cases hrecorded : identifier ∈ recorded s p
    · obtain ⟨key, hkey, hprovider, rfl⟩ := mem_recorded.mp hrecorded
      exact ⟨key, (mem_synced_of_mem hkey).mpr fun _ => hlisted, hprovider, rfl⟩
    · obtain ⟨info, hinfo, rfl⟩ := List.mem_map.mp hlisted
      have hnew : info.keyIdentifier ∈ identifiers (newKeys s p) :=
        List.mem_map_of_mem (mem_newKeys.mpr ⟨hinfo, hrecorded⟩)
      obtain ⟨key, hkey, hprovider, heq⟩ :
          ∃ key ∈ (newKeys s p).foldl (addKey p) s.keys, key.providerId = p ∧
            key.keyIdentifier = info.keyIdentifier := exists_of_foldl hnew
      refine ⟨key, mem_synced.mpr ⟨hkey, fun hgone => ?_⟩, hprovider, heq⟩
      exact (mem_goneKeys.mp hgone).2.2 (heq ▸ List.mem_map_of_mem hinfo)

theorem mem_recorded_synced_of_ne {other : ℕ} (h : other ≠ p) :
    identifier ∈ recorded (synced s other) p ↔ identifier ∈ recorded s p := by
  rw [mem_recorded, mem_recorded]
  constructor
  · rintro ⟨key, hkey, hprovider, hidentifier⟩
    have hold := (mem_of_mem_synced hkey).resolve_right fun heq => h (heq.symm.trans hprovider)
    exact ⟨key, hold, hprovider, hidentifier⟩
  · rintro ⟨key, hkey, hprovider, hidentifier⟩
    have hkept : key ∈ (synced s other).keys := (mem_synced_of_mem hkey).mpr
      fun heq => absurd (heq.symm.trans hprovider) h
    exact ⟨key, hkept, hprovider, hidentifier⟩

theorem unique_synced (h : Unique s.keys) (hnodup : (identifiers (newKeys s p)).Nodup) :
    Unique (synced s p).keys := by
  have hfold : Unique ((newKeys s p).foldl (addKey p) s.keys) := by
    apply unique_foldl h hnodup
    intro info hinfo key hkey hprovider heq
    exact (mem_newKeys.mp hinfo).2 (mem_recorded.mpr ⟨key, hkey, hprovider, heq⟩)
  intro key hkey key' hkey'
  exact hfold key (mem_synced.mp hkey).1 key' (mem_synced.mp hkey').1

theorem syncKeys_cases (s : HsmSite) (p : ℕ) (call : HsmCall) :
    (syncKeys s p call).2 = s ∧ (∃ e, (syncKeys s p call).1 = .error e) ∨
      (s.providers.get? p).isSome = true ∧ call = .done ∧ (identifiers (newKeys s p)).Nodup ∧
        (syncKeys s p call).2 = synced s p := by
  unfold syncKeys
  cases s.providers.get? p with
  | none => exact .inl ⟨rfl, _, rfl⟩
  | some provider =>
    cases call with
    | refused e => exact .inl ⟨rfl, _, rfl⟩
    | broken e => exact .inl ⟨rfl, _, rfl⟩
    | uncommitted message => exact .inl ⟨rfl, _, rfl⟩
    | done =>
      dsimp only
      split_ifs with hnodup
      · exact .inr ⟨rfl, rfl, hnodup, rfl⟩
      · exact .inl ⟨rfl, _, rfl⟩

theorem syncKeys_eq_ok (h : syncKeys s p call = (.ok counts, s')) :
    (s.providers.get? p).isSome = true ∧ (identifiers (newKeys s p)).Nodup ∧ s' = synced s p := by
  rcases syncKeys_cases s p call with ⟨_, e, he⟩ | ⟨hprovider, _, hnodup, hsynced⟩
  · rw [h] at he
    cases he
  · rw [h] at hsynced
    exact ⟨hprovider, hnodup, hsynced⟩

theorem mirrors_synced (h : (s.providers.get? p).isSome = true) : Mirrors (synced s p) p :=
  ⟨h, fun _ => mem_recorded_synced⟩

/-- Where the rows are for the keys of the module there is nothing to do. -/
theorem syncKeys_of_mirrors (h : Mirrors s p) :
    syncKeys s p .done = (.ok ⟨0, 0, (s.modules p).length⟩, s) := by
  have hnew : newKeys s p = [] := by
    rw [List.eq_nil_iff_forall_not_mem]
    intro info hinfo
    obtain ⟨hlisted, hnot⟩ := mem_newKeys.mp hinfo
    exact hnot ((h.rows _).mpr (List.mem_map_of_mem hlisted))
  have hgone : goneKeys s p = [] := by
    rw [List.eq_nil_iff_forall_not_mem]
    intro key hkey
    obtain ⟨hmem, hprovider, hnot⟩ := mem_goneKeys.mp hkey
    exact hnot ((h.rows _).mp (mem_recorded.mpr ⟨key, hmem, hprovider, rfl⟩))
  have hsame : synced s p = s := by
    unfold synced
    rw [hnew, hgone]
    have hkeys : s.keys.deleteWhere (fun key => key ∈ ([] : List HsmKey)) = s.keys := by
      apply Table.ext_rows
      simp [Table.deleteWhere]
    exact congrArg (fun keys => { s with keys }) hkeys
  obtain ⟨provider, hprovider⟩ := Option.isSome_iff_exists.mp h.provider
  unfold syncKeys
  rw [hprovider]
  dsimp only
  have hnodup : (identifiers []).Nodup := List.nodup_nil
  rw [hnew, hgone, hsame, if_pos hnodup]
  rfl

/-- A synchronization that goes through leaves exactly the keys of the module in the rows of the
provider, keeps every row that it need not delete, and leaves nothing for a second one. -/
theorem syncKeys_settles (h : syncKeys s p call = (.ok counts, s')) :
    (∀ identifier, identifier ∈ recorded s' p ↔ identifier ∈ identifiers (s.modules p)) ∧
      (∀ key ∈ s.keys, key ∈ s'.keys ↔
        (key.providerId = p → key.keyIdentifier ∈ identifiers (s.modules p))) ∧
      (∀ key ∈ s'.keys, key ∈ s.keys ∨ key.providerId = p) ∧
      syncKeys s' p .done = (.ok ⟨0, 0, (s.modules p).length⟩, s') := by
  obtain ⟨hprovider, _, rfl⟩ := syncKeys_eq_ok h
  exact ⟨fun _ => mem_recorded_synced, fun _ => mem_synced_of_mem, fun _ => mem_of_mem_synced,
    syncKeys_of_mirrors (mirrors_synced hprovider)⟩

end Synced

section Steps

variable (s : HsmSite) (p : ℕ) (r : KeyRequest) (answer : KeyRequest → HsmKeyInfo)
  (keyId : ℕ) (pem : String) (call : HsmCall)

def madeKey : HsmSite := setModule s p (s.modules p ++ [answer r])

def destroyedKey (key : HsmKey) : HsmSite :=
  setModule s key.providerId
    ((s.modules key.providerId).filter fun info => info.keyIdentifier ≠ key.keyIdentifier)

def withPublicKey : HsmSite :=
  { s with keys := s.keys.update keyId fun key => { key with publicKeyPem := some pem } }

theorem generateKey_cases :
    (generateKey s p r answer call).2 = s ∨
      (call = .done → (answer r).keyIdentifier ∈ recorded s p) ∧ (∀ e, call ≠ .refused e) ∧
        (generateKey s p r answer call).2 = madeKey s p r answer ∨
      (answer r).keyIdentifier ∉ recorded s p ∧ (generateKey s p r answer call).2 =
        { madeKey s p r answer with keys := addKey p s.keys (answer r) } := by
  unfold generateKey
  cases s.providers.get? p with
  | none => exact .inl rfl
  | some provider =>
    dsimp only
    by_cases halgorithm : r.algorithm ∉ validAlgorithms
    · rw [if_pos halgorithm]
      exact .inl rfl
    · by_cases hpurpose : r.purpose ∉ validPurposes
      · rw [if_neg halgorithm, if_pos hpurpose]
        exact .inl rfl
      · rw [if_neg halgorithm, if_neg hpurpose]
        cases call with
        | refused e => exact .inl rfl
        | broken e => exact .inr (.inl ⟨(fun h => nomatch h), (fun _ h => nomatch h), rfl⟩)
        | uncommitted message =>
          exact .inr (.inl ⟨(fun h => nomatch h), (fun _ h => nomatch h), rfl⟩)
        | done =>
          dsimp only
          split_ifs with hknown
          · exact .inr (.inl ⟨fun _ => hknown, (fun _ h => nomatch h), rfl⟩)
          · exact .inr (.inr ⟨hknown, rfl⟩)

theorem deleteKey_cases :
    (deleteKey s keyId call).2 = s ∨ ∃ key, s.keys.get? keyId = some key ∧
      (call ≠ .done ∧ (∀ e, call ≠ .refused e) ∧
          (deleteKey s keyId call).2 = destroyedKey s key ∨
        (deleteKey s keyId call).2 =
          { destroyedKey s key with keys := s.keys.delete keyId }) := by
  unfold deleteKey
  cases s.keys.get? keyId with
  | none => exact .inl rfl
  | some key =>
    cases call with
    | refused e => exact .inl rfl
    | broken e => exact .inr ⟨key, rfl, .inl ⟨(fun h => nomatch h), (fun _ h => nomatch h), rfl⟩⟩
    | uncommitted message =>
      exact .inr ⟨key, rfl, .inl ⟨(fun h => nomatch h), (fun _ h => nomatch h), rfl⟩⟩
    | done => exact .inr ⟨key, rfl, .inr rfl⟩

theorem getPublicKey_cases : (getPublicKey s keyId pem call).2 = s ∨
    (getPublicKey s keyId pem call).2 = withPublicKey s keyId pem := by
  unfold getPublicKey
  cases s.keys.get? keyId with
  | none => exact .inl rfl
  | some key =>
    dsimp only
    split
    · exact .inl rfl
    · cases call with
      | done => exact .inr rfl
      | _ => exact .inl rfl

theorem createProvider_cases (name type : String) :
    (createProvider s name type).2 = s ∨
      (createProvider s name type).2 = { s with providers := s.providers.insert { name, type } } := by
  unfold createProvider
  by_cases htype : type ∉ validTypes
  · rw [if_pos htype]
    exact .inl rfl
  · rw [if_neg htype]
    by_cases hname : (s.providers.first fun p => p.name = name).isSome
    · rw [if_pos hname]
      exact .inl rfl
    · rw [if_neg hname]
      exact .inr rfl

theorem deleteProvider_cases :
    (deleteProvider s p).2 = s ∨ (deleteProvider s p).2 =
      { s with
        providers := s.providers.delete p
        keys := s.keys.deleteWhere fun key => key.providerId = p } := by
  unfold deleteProvider
  cases s.providers.get? p with
  | none => exact .inl rfl
  | some provider => exact .inr rfl

end Steps

section Runs

variable {s s' : HsmSite} {p keyId : ℕ} {key : HsmKey} {pem identifier : String}
  {es : List HsmEvent}

theorem unique_deleteWhere {keys : Table HsmKey} {q : HsmKey → Bool} (h : Unique keys) :
    Unique (keys.deleteWhere q) := by
  intro key hkey key' hkey'
  exact h key (Table.mem_deleteWhere.mp hkey).1 key' (Table.mem_deleteWhere.mp hkey').1

/-- The public key of a row changes, and no identifier and no provider. -/
theorem exists_of_withPublicKey (h : key ∈ (withPublicKey s keyId pem).keys) :
    ∃ old ∈ s.keys, old.id = key.id ∧ old.providerId = key.providerId ∧
      old.keyIdentifier = key.keyIdentifier := by
  rcases Table.mem_update.mp h with ⟨hmem, _⟩ | ⟨old, hold, rfl⟩
  · exact ⟨key, hmem, rfl, rfl, rfl⟩
  · exact ⟨old, Table.mem_of_get? hold, Table.key_of_get? hold, rfl, rfl⟩

theorem mem_recorded_withPublicKey :
    identifier ∈ recorded (withPublicKey s keyId pem) p ↔ identifier ∈ recorded s p := by
  rw [mem_recorded, mem_recorded]
  constructor
  · rintro ⟨key, hkey, rfl, rfl⟩
    obtain ⟨old, hold, _, hprovider, hidentifier⟩ := exists_of_withPublicKey hkey
    exact ⟨old, hold, hprovider, hidentifier⟩
  · rintro ⟨key, hkey, rfl, rfl⟩
    by_cases hid : key.id = keyId
    · have hget : s.keys.get? keyId = some key := Table.get?_eq_some_iff.mpr ⟨hkey, hid⟩
      exact ⟨_, Table.mem_update.mpr (.inr ⟨key, hget, rfl⟩), rfl, rfl⟩
    · exact ⟨key, Table.mem_update.mpr (.inl ⟨hkey, hid⟩), rfl, rfl⟩

theorem unique_withPublicKey (h : Unique s.keys) : Unique (withPublicKey s keyId pem).keys := by
  intro key hkey key' hkey' hprovider hidentifier
  obtain ⟨old, hold, hid, hp, hi⟩ := exists_of_withPublicKey hkey
  obtain ⟨old', hold', hid', hp', hi'⟩ := exists_of_withPublicKey hkey'
  have heq : old = old' := h old hold old' hold' (by rw [hp, hp', hprovider])
    (by rw [hi, hi', hidentifier])
  have hids : key.id = key'.id := by rw [← hid, ← hid', heq]
  exact Table.eq_of_key_eq hkey hkey' hids

theorem unique_step (h : Unique s.keys) (e : HsmEvent) : Unique (step s e).keys := by
  cases e with
  | createProvider name type =>
    dsimp only [step]
    rcases createProvider_cases s name type with heq | heq <;> (rw [heq]; exact h)
  | deleteProvider other =>
    dsimp only [step]
    rcases deleteProvider_cases s other with heq | heq
    · rw [heq]
      exact h
    · rw [heq]
      exact unique_deleteWhere h
  | generateKey other r answer call =>
    dsimp only [step]
    rcases generateKey_cases s other r answer call with heq | ⟨_, _, heq⟩ | ⟨hnew, heq⟩
    · rw [heq]
      exact h
    · rw [heq]
      exact h
    · rw [heq]
      apply unique_addKey h
      intro key hkey hprovider hidentifier
      exact hnew (mem_recorded.mpr ⟨key, hkey, hprovider, hidentifier⟩)
  | deleteKey keyId call =>
    dsimp only [step]
    rcases deleteKey_cases s keyId call with heq | ⟨key, _, ⟨_, _, heq⟩ | heq⟩
    · rw [heq]
      exact h
    · rw [heq]
      exact h
    · rw [heq]
      exact unique_deleteWhere h
  | getPublicKey keyId pem call =>
    dsimp only [step]
    rcases getPublicKey_cases s keyId pem call with heq | heq
    · rw [heq]
      exact h
    · rw [heq]
      exact unique_withPublicKey h
  | syncKeys other call =>
    dsimp only [step]
    rcases syncKeys_cases s other call with ⟨heq, _⟩ | ⟨_, _, hnodup, heq⟩
    · rw [heq]
      exact h
    · rw [heq]
      exact unique_synced h hnodup
  | otherHands other infos => exact h

theorem mem_recorded_addKey {other : ℕ} {info : HsmKeyInfo} :
    identifier ∈ recorded { s with keys := addKey other s.keys info } p ↔
      identifier ∈ recorded s p ∨ other = p ∧ identifier = info.keyIdentifier := by
  rw [mem_recorded, mem_recorded]
  constructor
  · rintro ⟨key, hkey, hprovider, rfl⟩
    rcases mem_addKey.mp hkey with hkey | rfl
    · exact .inl ⟨key, hkey, hprovider, rfl⟩
    · exact .inr ⟨hprovider, rfl⟩
  · rintro (⟨key, hkey, hprovider, rfl⟩ | ⟨rfl, rfl⟩)
    · exact ⟨key, mem_addKey.mpr (.inl hkey), hprovider, rfl⟩
    · exact ⟨_, mem_addKey_self, rfl, rfl⟩

theorem mem_recorded_delete (h : Unique s.keys) (hkey : s.keys.get? keyId = some key) :
    identifier ∈ recorded { s with keys := s.keys.delete keyId } p ↔
      identifier ∈ recorded s p ∧ ¬(key.providerId = p ∧ identifier = key.keyIdentifier) := by
  obtain ⟨hmem, hid⟩ := Table.get?_eq_some_iff.mp hkey
  rw [mem_recorded, mem_recorded]
  constructor
  · rintro ⟨key', hkey', rfl, rfl⟩
    obtain ⟨hmem', hne⟩ := Table.mem_delete.mp hkey'
    refine ⟨⟨key', hmem', rfl, rfl⟩, fun ⟨hprovider, hidentifier⟩ => hne ?_⟩
    rw [h key' hmem' key hmem hprovider.symm hidentifier, hid]
  · rintro ⟨⟨key', hmem', rfl, rfl⟩, hother⟩
    refine ⟨key', Table.mem_delete.mpr ⟨hmem', fun hid' => ?_⟩, rfl, rfl⟩
    obtain rfl := Table.eq_of_key_eq hmem hmem' (hid.trans hid'.symm)
    exact hother ⟨rfl, rfl⟩

/-- A step that does not part them leaves the rows of a provider and its module together. -/
theorem mirrors_step (hunique : Unique s.keys) (h : Mirrors s p) {e : HsmEvent}
    (he : KeepsTogether p s e) : Mirrors (step s e) p := by
  obtain ⟨provider, hprovider⟩ := Option.isSome_iff_exists.mp h.provider
  cases e with
  | createProvider name type =>
    dsimp only [step]
    rcases createProvider_cases s name type with heq | heq
    · rw [heq]
      exact h
    · rw [heq]
      exact ⟨Option.isSome_iff_exists.mpr ⟨_, Table.get?_insert_of_get? hprovider⟩, h.rows⟩
  | deleteProvider other =>
    dsimp only [step]
    rcases deleteProvider_cases s other with heq | heq
    · rw [heq]
      exact h
    · rw [heq]
      refine ⟨(congrArg Option.isSome (Table.get?_delete_of_ne he)).trans h.provider, ?_⟩
      intro identifier
      rw [← h.rows identifier, mem_recorded, mem_recorded]
      constructor
      · rintro ⟨key, hkey, hrest⟩
        exact ⟨key, (Table.mem_deleteWhere.mp hkey).1, hrest⟩
      · rintro ⟨key, hkey, hkept, hidentifier⟩
        have hother : decide (key.providerId = other) = false :=
          decide_eq_false (hkept ▸ he.symm)
        exact ⟨key, Table.mem_deleteWhere.mpr ⟨hkey, hother⟩, hkept, hidentifier⟩
  | generateKey other r answer call =>
    dsimp only [step]
    have hmodule : ∀ identifier, identifier ∈ identifiers ((madeKey s other r answer).modules p) ↔
        identifier ∈ recorded s p ∨ other = p ∧ identifier = (answer r).keyIdentifier := by
      intro identifier
      rw [h.rows]
      by_cases hother : other = p
      · subst hother
        simp [madeKey, setModule, identifiers]
      · simp [madeKey, setModule, Function.update_of_ne (Ne.symm hother), hother]
    rcases generateKey_cases s other r answer call with heq | ⟨hdone, hrefused, heq⟩ | ⟨_, heq⟩
    · rw [heq]
      exact h
    · rw [heq]
      refine ⟨h.provider, fun identifier => ?_⟩
      rw [hmodule]
      refine ⟨.inl, fun hmem => hmem.elim id ?_⟩
      rintro ⟨rfl, rfl⟩
      rcases he rfl with hcall | ⟨e, hcall⟩
      · exact hdone hcall
      · exact absurd hcall (hrefused e)
    · rw [heq]
      exact ⟨h.provider, fun identifier => mem_recorded_addKey.trans (hmodule identifier).symm⟩
  | deleteKey keyId call =>
    dsimp only [step]
    rcases deleteKey_cases s keyId call with heq | ⟨key, hkey, hcall⟩
    · rw [heq]
      exact h
    · have hmodule : ∀ identifier, identifier ∈ identifiers ((destroyedKey s key).modules p) ↔
          identifier ∈ recorded s p ∧ ¬(key.providerId = p ∧ identifier = key.keyIdentifier) := by
        intro identifier
        rw [h.rows]
        by_cases hother : key.providerId = p
        · subst hother
          simp only [destroyedKey, setModule, identifiers, Function.update_self, List.mem_map,
            List.mem_filter, decide_eq_true_eq, true_and]
          constructor
          · rintro ⟨info, ⟨hinfo, hne⟩, rfl⟩
            exact ⟨⟨info, hinfo, rfl⟩, hne⟩
          · rintro ⟨⟨info, hinfo, rfl⟩, hne⟩
            exact ⟨info, ⟨hinfo, hne⟩, rfl⟩
        · simp [destroyedKey, setModule, Function.update_of_ne (Ne.symm hother), hother]
      rcases hcall with ⟨hdone, hrefused, heq⟩ | heq
      · rw [heq]
        refine ⟨h.provider, fun identifier => ?_⟩
        rw [hmodule]
        refine ⟨fun hmem => ⟨hmem, fun ⟨hother, _⟩ => ?_⟩, And.left⟩
        rcases he key hkey hother with hcall | ⟨e, hcall⟩
        · exact hdone hcall
        · exact hrefused e hcall
      · rw [heq]
        exact ⟨h.provider, fun identifier =>
          (mem_recorded_delete hunique hkey).trans (hmodule identifier).symm⟩
  | getPublicKey keyId pem call =>
    dsimp only [step]
    rcases getPublicKey_cases s keyId pem call with heq | heq
    · rw [heq]
      exact h
    · rw [heq]
      exact ⟨h.provider, fun identifier => mem_recorded_withPublicKey.trans (h.rows identifier)⟩
  | syncKeys other call =>
    dsimp only [step]
    rcases syncKeys_cases s other call with ⟨heq, _⟩ | ⟨_, _, _, heq⟩
    · rw [heq]
      exact h
    · rw [heq]
      by_cases hother : other = p
      · subst hother
        exact mirrors_synced h.provider
      · refine ⟨h.provider, fun identifier => ?_⟩
        exact (mem_recorded_synced_of_ne hother).trans (h.rows identifier)
  | otherHands other infos =>
    refine ⟨h.provider, fun identifier => ?_⟩
    have hmodule : (setModule s other infos).modules p = s.modules p :=
      Function.update_of_ne (Ne.symm he) _ _
    dsimp only [step]
    rw [hmodule]
    exact h.rows identifier

end Runs

section Sample

def tokenKey (keyIdentifier : String) : HsmKeyInfo :=
  { keyIdentifier, label := keyIdentifier, algorithm := "EC-P256", keyType := "asymmetric"
    purpose := "signing" }

/-- A token with two keys, one of which has a row, beside a row of a key that is gone. -/
def tokenSite : HsmSite where
  providers := (∅ : Table HsmProvider).insert { name := "token", type := "pkcs11" }
  keys := ((∅ : Table HsmKey).insert { tokenKey "a1" with providerId := 1 }).insert
    { tokenKey "c3" with providerId := 1 }
  modules _ := [tokenKey "a1", tokenKey "b2"]

theorem syncKeys_tokenSite : ∃ s', syncKeys tokenSite 1 .done = (.ok ⟨1, 1, 1⟩, s') ∧
    syncKeys s' 1 .done = (.ok ⟨0, 0, 2⟩, s') := by
  have h : syncKeys tokenSite 1 .done = (.ok ⟨1, 1, 1⟩, _) := rfl
  exact ⟨_, h, (syncKeys_settles h).2.2.2⟩

def rekeying : List HsmEvent :=
  [.generateKey 1 { label := "d4", algorithm := "EC-P256" } (fun r => tokenKey r.label) .done,
    .deleteKey 1 .done]

end Sample

end HsmService

end CaManager
