import CaManager.Accounts.WebAuthn
import CaManager.Library.Machines

/-!
# Challenges are accepted once

Keys are registered and used by any users at any times, while challenges are handed out and
cleaned up. The identifier of a deleted challenge may be given to a later one, so a history counts
the challenges beside the tables: the row of an identifier is about the last one that got it.
-/

namespace CaManager

open Library

namespace WebAuthnService

/-- A request, with what is drawn and the readings of the clock. Users come and go. -/
inductive Event (F : Type)
  | registrationOptions (userId : ℕ) (hostname : String) (challenge : Bytes)
    (cleanedAt now : Time)
  | register (userId : ℕ) (credential : JsonTree F) (hostname : String)
    (credentialName : Option String) (now : Time)
  | authenticationOptions (username hostname : String) (challenge : Bytes) (cleanedAt now : Time)
  | authenticate (userId : ℕ) (credential : JsonTree F) (hostname : String) (now usedAt : Time)
  | deleteCredential (credentialId userId : ℕ)
  | toggleCredential (credentialId userId : ℕ) (enabled : Bool)
  | changeUsers (users : Table User)

/-- A challenge that was created: the how manieth, and in which row. -/
structure Issue where
  number : ℕ
  row : ℕ
  userId : ℕ
  challengeType : String
  createdAt : Time
  deriving Repr, DecidableEq

structure Acceptance where
  issue : Option Issue
  userId : ℕ
  ceremony : String
  time : Time
  deriving Repr, DecidableEq

/-- The tables, and the challenges that were created and accepted, each the last first. -/
structure History where
  db : Database
  issued : List Issue := []
  accepted : List Acceptance := []

namespace History

def issueOf (h : History) (row : ℕ) : Option Issue := h.issued.find? fun i => i.row = row

def create (h : History) (userId : ℕ) (challengeType : String) (cleanedAt now : Time)
    (db : Database) : History where
  db := db
  issued :=
    { number := h.issued.length
      row := (cleanUp h.db.challenges userId challengeType cleanedAt).nextKey
      userId, challengeType, createdAt := now } :: h.issued
  accepted := h.accepted

def accept [FloatText F] (h : History) (userId : ℕ) (ceremony : String) (credential : JsonTree F)
    (now : Time) (db : Database) : History where
  db := db
  issued := h.issued
  accepted :=
    let named := (clientChallenge credential).bind fun challenge =>
      findChallenge h.db challenge userId ceremony now
    ⟨named.bind fun record => h.issueOf record.id, userId, ceremony, now⟩ :: h.accepted

end History

variable {F : Type} [FloatText F] [WebAuthnLibrary F]

def step (h : History) : Event F → History
  | .registrationOptions userId hostname challenge cleanedAt now =>
    match h.db.users.get? userId with
    | none => h
    | some user =>
      match generateRegistrationOptions h.db user hostname challenge cleanedAt now with
      | (some _, db) => h.create user.id "registration" cleanedAt now db
      | (none, db) => { h with db }
  | .register userId credential hostname credentialName now =>
    match verifyRegistration h.db userId credential hostname credentialName now with
    | (.verified _ _, db) => h.accept userId "registration" credential now db
    | (_, db) => { h with db }
  | .authenticationOptions username hostname challenge cleanedAt now =>
    match h.db.users.first fun u => u.username = username with
    | none => h
    | some user =>
      match storeChallenge h.db user.id "authentication" challenge cleanedAt now with
      | none => h
      | some _ => h.create user.id "authentication" cleanedAt now
        (generateAuthenticationOptions h.db username hostname challenge cleanedAt now).2
  | .authenticate userId credential hostname now usedAt =>
    match verifyAuthentication h.db userId credential hostname now usedAt with
    | (.verified _ _, db) => h.accept userId "authentication" credential now db
    | (_, db) => { h with db }
  | .deleteCredential credentialId userId =>
    { h with db := (WebAuthnService.deleteCredential h.db credentialId userId).2 }
  | .toggleCredential credentialId userId enabled =>
    { h with db := (WebAuthnService.toggleCredential h.db credentialId userId enabled).2 }
  | .changeUsers users => { h with db := { h.db with users } }

/-- No challenge is accepted twice, and each is accepted for its user and its ceremony before its
lifetime ends. -/
structure Secure (h : History) : Prop where
  numbered : (h.issued.map Issue.number).Nodup
  once : (h.accepted.map Acceptance.issue).Nodup
  intended : ∀ a ∈ h.accepted, ∃ i ∈ h.issued, a.issue = some i ∧ i.userId = a.userId ∧
    i.challengeType = a.ceremony ∧ a.time < i.createdAt + challengeTimeout

/-- A sign-in uses an enabled key of the user, the one of the response, and counts it up. -/
def Counts (h : History) : Event F → Prop
  | .authenticate userId credential hostname now usedAt =>
    (verifyAuthentication h.db userId credential hostname now usedAt).1.isVerified = true →
      ∃ c ∈ h.db.credentials, c.userId = userId ∧ c.enabled = true ∧
        (textMember "id" credential).bind base64urlDecode = some c.credentialId ∧
        ∃ c' ∈ (step h (.authenticate userId credential hostname now usedAt)).db.credentials,
          c'.id = c.id ∧ c.signCount < c'.signCount
  | _ => True

section Requests

omit [WebAuthnLibrary F]

variable {db db' : Database} {userId : ℕ} {challengeType hostname challenge : String}
  {cleanedAt now usedAt : Time} {record : WebAuthnChallenge}

theorem mem_cleanUp {challenges : Table WebAuthnChallenge} {c : WebAuthnChallenge}
    (hc : c ∈ cleanUp challenges userId challengeType now) : c ∈ challenges :=
  (Table.mem_deleteWhere.mp hc).1

theorem challenges_of_storeChallenge {drawn : Bytes}
    (h : storeChallenge db userId challengeType drawn cleanedAt now = some db') :
    db'.challenges = (cleanUp db.challenges userId challengeType cleanedAt).insert
      { userId, challengeType, challenge := base64urlEncode drawn,
        expiresAt := now + challengeTimeout } := by
  unfold storeChallenge at h
  dsimp only at h
  split_ifs at h
  cases h
  rfl

theorem of_findChallenge (h : findChallenge db challenge userId challengeType now = some record) :
    record ∈ db.challenges ∧ record.userId = userId ∧ record.challengeType = challengeType ∧
      now < record.expiresAt := by
  obtain ⟨hfirst, hvalid⟩ := Option.filter_eq_some_iff.mp h
  have hholds := Table.holds_of_first hfirst
  simp only [Bool.and_eq_true, decide_eq_true_eq] at hholds
  obtain ⟨⟨⟨_, huser⟩, htype⟩, _⟩ := hholds
  simp only [WebAuthnChallenge.isValid, Bool.and_eq_true, decide_eq_true_eq] at hvalid
  exact ⟨Table.mem_of_first hfirst, huser, htype, hvalid.2⟩

end Requests

section Responses

variable {db db' : Database} {userId : ℕ} {credential : JsonTree F} {hostname : String}
  {name : Option String} {now usedAt : Time}

/-- The response names a challenge that is good for the ceremony, and it is gone afterwards. -/
def Consumes (db : Database) (userId : ℕ) (ceremony : String) (credential : JsonTree F)
    (now : Time) (db' : Database) : Prop :=
  ∃ challenge record, clientChallenge credential = some challenge ∧
    findChallenge db challenge userId ceremony now = some record ∧
    db'.challenges = db.challenges.delete record.id

theorem verifyRegistration_cases {outcome : Outcome WebAuthnCredential}
    (h : verifyRegistration db userId credential hostname name now = (outcome, db')) :
    (outcome.isVerified = false ∧ db' = db) ∨
      (outcome.isVerified = true ∧ Consumes db userId "registration" credential now db') := by
  unfold verifyRegistration at h
  split at h
  · cases h
    exact .inl ⟨rfl, rfl⟩
  · split at h
    · cases h
      exact .inl ⟨rfl, rfl⟩
    · dsimp only at h
      split at h
      · cases h
        exact .inl ⟨rfl, rfl⟩
      · split_ifs at h
        · cases h
          exact .inl ⟨rfl, rfl⟩
        · cases h
          exact .inr ⟨rfl, _, _, ‹_›, ‹_›, rfl⟩

theorem verifyAuthentication_cases {outcome : Outcome User}
    (h : verifyAuthentication db userId credential hostname now usedAt = (outcome, db')) :
    (outcome.isVerified = false ∧ db' = db) ∨
      Consumes db userId "authentication" credential now db' ∧
        ∃ credId c count, (textMember "id" credential).bind base64urlDecode = some credId ∧
          findCredential db credId userId = some c ∧
          db'.credentials = db.credentials.update c.id (countUse · count usedAt) := by
  unfold verifyAuthentication at h
  split at h
  · cases h
    exact .inl ⟨rfl, rfl⟩
  · split at h
    · cases h
      exact .inl ⟨rfl, rfl⟩
    · split at h
      · cases h
        exact .inl ⟨rfl, rfl⟩
      · split at h
        · cases h
          exact .inl ⟨rfl, rfl⟩
        · dsimp only at h
          split at h
          · cases h
            exact .inl ⟨rfl, rfl⟩
          · refine .inr ⟨?_, ?_⟩
            · split at h
              · cases h
                exact ⟨_, _, ‹_›, ‹_›, rfl⟩
              · cases h
                exact ⟨_, _, ‹_›, ‹_›, rfl⟩
            · split at h
              · cases h
                exact ⟨_, _, _, ‹_›, ‹_›, rfl⟩
              · cases h
                exact ⟨_, _, _, ‹_›, ‹_›, rfl⟩

theorem counts (h : History) (e : Event F) : Counts h e := by
  cases e with
  | authenticate userId credential hostname now usedAt =>
    intro hverified
    obtain ⟨outcome, db', hcall⟩ :
        ∃ outcome db', verifyAuthentication h.db userId credential hostname now usedAt =
          (outcome, db') := ⟨_, _, rfl⟩
    rw [hcall] at hverified
    rcases verifyAuthentication_cases hcall with ⟨hnot, _⟩ | ⟨_, credId, c, count, hid, hc, hdb⟩
    · rw [hnot] at hverified
      cases hverified
    · have hholds := Table.holds_of_first hc
      simp only [Bool.and_eq_true, decide_eq_true_eq] at hholds
      obtain ⟨⟨hcredId, huser⟩, henabled⟩ := hholds
      have hmem := Table.mem_of_first hc
      refine ⟨c, hmem, huser, henabled, hid.trans (congrArg some hcredId.symm), ?_⟩
      have hstep : (step h (.authenticate userId credential hostname now usedAt)).db = db' := by
        cases outcome with
        | verified message user => simp only [step, hcall]; rfl
        | refused message => cases hverified
        | raised => cases hverified
      refine ⟨Keyed.withKey c.id (countUse c count usedAt), ?_, rfl, ?_⟩
      · rw [hstep, hdb]
        exact Table.mem_update.mpr (.inr ⟨c, Table.get?_eq_some_iff.mpr ⟨hmem, rfl⟩, rfl⟩)
      · exact lt_of_lt_of_le (Nat.lt_succ_self _) (Nat.le_max_right _ _)
  | _ => trivial

end Responses

/-- The challenges of the table are those that were created there last, and were not accepted. -/
structure Tracked (h : History) : Prop where
  numbers : ∀ i ∈ h.issued, i.number < h.issued.length
  rows : ∀ r ∈ h.db.challenges, ∃ i, h.issueOf r.id = some i ∧ i.userId = r.userId ∧
    i.challengeType = r.challengeType ∧ r.expiresAt = i.createdAt + challengeTimeout ∧
    some i ∉ h.accepted.map Acceptance.issue
  secure : Secure h

section Tracking

omit [WebAuthnLibrary F]

variable {h : History} {db : Database} {userId : ℕ} {ceremony : String} {credential : JsonTree F}
  {cleanedAt now : Time}

theorem mem_issued_of_issueOf {row : ℕ} {i : Issue} (hi : h.issueOf row = some i) :
    i ∈ h.issued ∧ i.row = row :=
  ⟨List.mem_of_find?_eq_some hi, by simpa using List.find?_some hi⟩

theorem Tracked.same (hh : Tracked h) (hdb : db.challenges = h.db.challenges) :
    Tracked { h with db } where
  numbers := hh.numbers
  rows r hr := hh.rows r (hdb ▸ hr)
  secure := ⟨hh.secure.numbered, hh.secure.once, hh.secure.intended⟩

theorem Tracked.create {drawn : Bytes} (hh : Tracked h)
    (hstore : storeChallenge h.db userId ceremony drawn cleanedAt now = some db) {db' : Database}
    (hdb' : db'.challenges = db.challenges) :
    Tracked (h.create userId ceremony cleanedAt now db') where
  numbers := by
    intro i hi
    rcases List.mem_cons.mp hi with rfl | hi
    · exact Nat.lt_succ_self _
    · exact (hh.numbers i hi).trans (Nat.lt_succ_self _)
  rows := by
    intro r hr
    have hr : r ∈ db.challenges := hdb' ▸ hr
    rw [challenges_of_storeChallenge hstore] at hr
    rcases Table.mem_insert.mp hr with hr | rfl
    · obtain ⟨i, hi, huser, htype, hexpires, hopen⟩ := hh.rows r (mem_cleanUp hr)
      have hother : (cleanUp h.db.challenges userId ceremony cleanedAt).nextKey ≠ r.id :=
        (Table.key_lt_nextKey hr).ne'
      refine ⟨i, ?_, huser, htype, hexpires, hopen⟩
      exact (List.find?_cons_of_neg (by simpa using hother)).trans hi
    · refine ⟨_, List.find?_cons_of_pos (by simp; rfl), rfl, rfl, rfl, fun haccepted => ?_⟩
      -- what was accepted was created before
      obtain ⟨a, ha, hissue⟩ := List.mem_map.mp haccepted
      obtain ⟨i, hi, hai, _⟩ := hh.secure.intended a ha
      have hsame := Option.some.inj (hai.symm.trans hissue)
      exact absurd (hh.numbers i hi) (by simp [hsame])
  secure := by
    refine ⟨List.nodup_cons.mpr ⟨fun hmem => ?_, hh.secure.numbered⟩, hh.secure.once, ?_⟩
    · obtain ⟨i, hi, hnumber⟩ := List.mem_map.mp hmem
      exact absurd (hh.numbers i hi) (by simp [hnumber])
    · intro a ha
      obtain ⟨i, hi, hintended⟩ := hh.secure.intended a ha
      exact ⟨i, List.mem_cons_of_mem _ hi, hintended⟩

theorem Tracked.consume (hh : Tracked h) (hdb : Consumes h.db userId ceremony credential now db) :
    Tracked { h with db } where
  numbers := hh.numbers
  rows r hr := by
    obtain ⟨_, record, _, _, hdelete⟩ := hdb
    have hr : r ∈ db.challenges := hr
    rw [hdelete] at hr
    exact hh.rows r (Table.mem_delete.mp hr).1
  secure := ⟨hh.secure.numbered, hh.secure.once, hh.secure.intended⟩

theorem Tracked.accept (hh : Tracked h) (hdb : Consumes h.db userId ceremony credential now db) :
    Tracked (h.accept userId ceremony credential now db) := by
  obtain ⟨challenge, record, hnamed, hfind, hdelete⟩ := hdb
  obtain ⟨hrecord, huser, htype, hnow⟩ := of_findChallenge hfind
  obtain ⟨i, hi, hiuser, hitype, hexpires, hopen⟩ := hh.rows record hrecord
  have haccepted : (h.accept userId ceremony credential now db).accepted =
      ⟨some i, userId, ceremony, now⟩ :: h.accepted := by
    simp only [History.accept, hnamed, Option.bind_some, hfind, hi]
  refine ⟨hh.numbers, fun r hr => ?_, hh.secure.numbered, ?_, ?_⟩
  · have hr : r ∈ db.challenges := hr
    rw [hdelete] at hr
    obtain ⟨hr, hother⟩ := Table.mem_delete.mp hr
    obtain ⟨i', hi', huser', htype', hexpires', hopen'⟩ := hh.rows r hr
    refine ⟨i', hi', huser', htype', hexpires', ?_⟩
    rw [haccepted, List.map_cons, List.mem_cons, not_or]
    refine ⟨fun hsame => hother ?_, hopen'⟩
    rw [Option.some.injEq] at hsame
    exact (mem_issued_of_issueOf hi').2.symm.trans (hsame ▸ (mem_issued_of_issueOf hi).2)
  · rw [haccepted]
    exact List.nodup_cons.mpr ⟨hopen, hh.secure.once⟩
  · rw [haccepted]
    intro a ha
    rcases List.mem_cons.mp ha with rfl | ha
    · exact ⟨i, (mem_issued_of_issueOf hi).1, rfl, hiuser.trans huser, hitype.trans htype,
        hexpires ▸ hnow⟩
    · exact hh.secure.intended a ha

end Tracking

section Changes

variable {db : Database} {credentialId userId : ℕ}

theorem challenges_deleteCredential :
    (deleteCredential db credentialId userId).2.challenges = db.challenges := by
  unfold deleteCredential
  split
  · rfl
  · split_ifs
    · rfl
    · rfl

theorem challenges_toggleCredential {enabled : Bool} :
    (toggleCredential db credentialId userId enabled).2.challenges = db.challenges := by
  unfold toggleCredential
  cases db.credentials.get? credentialId with
  | none => rfl
  | some c =>
    by_cases hmay : mayChange db c userId = true
    · simp only [if_pos hmay]
    · simp only [if_neg hmay]

theorem storeChallenge_of_authenticationOptions {db' : Database} {user : User}
    {username hostname : String} {challenge : Bytes} {cleanedAt now : Time}
    (huser : db.users.first (fun u => u.username = username) = some user)
    (hstore : storeChallenge db user.id "authentication" challenge cleanedAt now = some db') :
    (generateAuthenticationOptions db username hostname challenge cleanedAt now).2 = db' := by
  unfold generateAuthenticationOptions
  rw [huser]
  dsimp only
  rw [hstore]
  dsimp only
  split_ifs
  · rfl
  · rfl

end Changes

theorem Tracked.step {h : History} (hh : Tracked h) (e : Event F) :
    Tracked (WebAuthnService.step h e) := by
  cases e with
  | registrationOptions userId hostname challenge cleanedAt now =>
    dsimp only [WebAuthnService.step]
    cases huser : h.db.users.get? userId with
    | none => exact hh
    | some user =>
      dsimp only [generateRegistrationOptions]
      cases hstore : storeChallenge h.db user.id "registration" challenge cleanedAt now with
      | none => exact hh.same rfl
      | some db => exact hh.create hstore rfl
  | register userId credential hostname name now =>
    dsimp only [WebAuthnService.step]
    obtain ⟨outcome, db, hcall⟩ :
        ∃ outcome db, verifyRegistration h.db userId credential hostname name now =
          (outcome, db) := ⟨_, _, rfl⟩
    rw [hcall]
    rcases verifyRegistration_cases hcall with ⟨hnot, rfl⟩ | ⟨hverified, hconsumes⟩
    · cases outcome with
      | verified message row => cases hnot
      | refused message => exact hh.same rfl
      | raised => exact hh.same rfl
    · cases outcome with
      | verified message row => exact hh.accept hconsumes
      | refused message => cases hverified
      | raised => cases hverified
  | authenticationOptions username hostname challenge cleanedAt now =>
    dsimp only [WebAuthnService.step]
    cases huser : h.db.users.first fun u => u.username = username with
    | none => exact hh
    | some user =>
      dsimp only
      cases hstore : storeChallenge h.db user.id "authentication" challenge cleanedAt now with
      | none => exact hh
      | some db =>
        exact hh.create hstore
          (congrArg _ (storeChallenge_of_authenticationOptions huser hstore))
  | authenticate userId credential hostname now usedAt =>
    dsimp only [WebAuthnService.step]
    obtain ⟨outcome, db, hcall⟩ :
        ∃ outcome db, verifyAuthentication h.db userId credential hostname now usedAt =
          (outcome, db) := ⟨_, _, rfl⟩
    rw [hcall]
    rcases verifyAuthentication_cases hcall with ⟨hnot, rfl⟩ | ⟨hconsumes, _⟩
    · cases outcome with
      | verified message user => cases hnot
      | refused message => exact hh.same rfl
      | raised => exact hh.same rfl
    · cases outcome with
      | verified message user => exact hh.accept hconsumes
      | refused message => exact hh.consume hconsumes
      | raised => exact hh.consume hconsumes
  | deleteCredential credentialId userId => exact hh.same challenges_deleteCredential
  | toggleCredential credentialId userId enabled => exact hh.same challenges_toggleCredential
  | changeUsers users => exact hh.same rfl

def start (users : Table User) (credentials : Table WebAuthnCredential) : History :=
  { db := { users, credentials } }

theorem tracked_start (users : Table User) (credentials : Table WebAuthnCredential) :
    Tracked (start users credentials) where
  numbers := nofun
  rows r hr := absurd hr (Table.not_mem_empty r)
  secure := ⟨List.nodup_nil, List.nodup_nil, nofun⟩

/-- Along every run, challenges are accepted once and as intended, and every sign-in counts. -/
theorem ceremonies_secure (users : Table User) (credentials : Table WebAuthnCredential)
    (es : List (Event F)) :
    Secure (run step (start users credentials) es) ∧
      Meets step Counts (start users credentials) es :=
  ⟨(run_invariant (I := Tracked) (fun _ e hh _ => hh.step e) (tracked_start users credentials)
    (meets_of_forall step (C := fun _ _ => True) (fun _ _ => trivial) _ es)).secure,
    meets_of_forall step counts _ es⟩

end WebAuthnService

end CaManager
