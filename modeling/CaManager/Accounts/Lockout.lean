import CaManager.Accounts.PasswordLogin
import CaManager.Library.Lockout
import CaManager.Library.Machines

/-!
# Account lockout

Beside the accounts, a tracker counts for each name the failed attempts that the login routes
answered, as a lockout of five attempts and fifteen minutes should. The rows keep in step with
the tracker as long as the route that does not ask for lockouts, and a directory that knows
the user by another name, are kept out of its way.
-/

namespace CaManager

open Library Sso Login

def User.lockout (u : User) : Lockout := ⟨u.failedLogins, u.lockedUntil⟩

/-- The lockout of the account with a name; nobody has failed at an account that is not
there. -/
def Accounts.lockout (st : Accounts) (name : String) : Lockout :=
  ((st.userNamed name).map User.lockout).getD {}

namespace AccountLockout

section Helpers

variable {st : Accounts} {username name : String} {now : Time} {u : User}

theorem userNamed_setUser_of_userNamed {f : User → User}
    (hf : ∀ u, (f u).username = u.username) (hu : st.userNamed username = some u) :
    (st.setUser u.id f).userNamed name =
      if name = username then some { f u with id := u.id } else st.userNamed name := by
  rw [Accounts.userNamed_setUser hf]
  split_ifs with hname
  · rw [hname, hu]
    simp
  · cases hv : st.userNamed name with
    | none => rfl
    | some v =>
      have hne : v.id ≠ u.id := by
        intro hid
        have hvu : v = u := Table.eq_of_key_eq (Accounts.mem_of_userNamed hv)
          (Accounts.mem_of_userNamed hu) hid
        rw [hvu] at hv
        exact hname ((Accounts.username_of_userNamed hv).symm.trans
          (Accounts.username_of_userNamed hu))
      simp [hne]

theorem lockout_of_userNamed (hu : st.userNamed username = some u) :
    st.lockout username = u.lockout := by
  rw [Accounts.lockout, hu, Option.map_some, Option.getD_some]

theorem lockout_of_none (hu : st.userNamed username = none) : st.lockout username = {} := by
  rw [Accounts.lockout, hu, Option.map_none, Option.getD_none]

theorem lockout_setUser {f : User → User} (hf : ∀ u, (f u).username = u.username)
    (hu : st.userNamed username = some u) :
    (st.setUser u.id f).lockout = Function.update st.lockout username (f u).lockout := by
  funext name
  unfold Accounts.lockout
  rw [userNamed_setUser_of_userNamed hf hu, Function.update_apply]
  split_ifs
  · rfl
  · rfl

theorem lockout_setUser_of_eq {id : ℕ} {f : User → User} (hf : ∀ u, (f u).username = u.username)
    (hsame : ∀ u, (f u).lockout = u.lockout) : (st.setUser id f).lockout = st.lockout := by
  funext name
  unfold Accounts.lockout
  rw [Accounts.userNamed_setUser hf, Option.map_map]
  congr 2
  funext u
  rw [Function.comp_apply, apply_ite User.lockout]
  split_ifs
  · exact hsame u
  · rfl

theorem fst_checkLockout :
    (checkLockout st username now).1 = (st.lockout username).locked now := by
  unfold checkLockout
  cases hu : st.userNamed username with
  | none => rw [lockout_of_none hu, Lockout.locked]
  | some u =>
    rw [lockout_of_userNamed hu]
    dsimp only
    cases huntil : u.lockedUntil with
    | none => simp [User.lockout, Lockout.locked, huntil]
    | some until' =>
      by_cases hnow : now < until'
      · simp [User.lockout, Lockout.locked, huntil, hnow]
      · simp [User.lockout, Lockout.locked, huntil, hnow]

theorem lockout_checkLockout :
    (checkLockout st username now).2.lockout =
      Function.update st.lockout username ((st.lockout username).expire now) := by
  unfold checkLockout
  cases hu : st.userNamed username with
  | none =>
    have hexpire : ({} : Lockout).expire now = {} := rfl
    rw [lockout_of_none hu, hexpire, ← lockout_of_none hu, Function.update_eq_self]
  | some u =>
    have hlockout := lockout_of_userNamed hu
    dsimp only
    cases huntil : u.lockedUntil with
    | none =>
      have hexpire : (st.lockout username).expire now = st.lockout username := by
        rw [hlockout]
        exact Lockout.expire_of_lockedUntil_eq_none huntil
      rw [hexpire, Function.update_eq_self]
    | some until' =>
      by_cases hnow : now < until'
      · have hexpire : (st.lockout username).expire now = st.lockout username := by
          rw [hlockout]
          simp [User.lockout, Lockout.expire, huntil, hnow]
        simp only [hnow, if_true]
        rw [hexpire, Function.update_eq_self]
      · have hexpire : (st.lockout username).expire now = {} := by
          rw [hlockout]
          simp [User.lockout, Lockout.expire, huntil, hnow]
        simp only [hnow, if_false]
        rw [hexpire, lockout_setUser (by intro; rfl) hu]
        rfl

theorem isSome_checkLockout :
    ((checkLockout st username now).2.userNamed username).isSome =
      (st.userNamed username).isSome := by
  unfold checkLockout
  cases hu : st.userNamed username with
  | none => simp [hu]
  | some u =>
    dsimp only
    cases u.lockedUntil with
    | none => simp [hu]
    | some until' =>
      dsimp only
      split_ifs
      · simp [hu]
      · rw [userNamed_setUser_of_userNamed (by intro; rfl) hu]
        simp

theorem lockout_recordFailure {maxAttempts : ℕ} {minutes : ℤ}
    (hu : st.userNamed username = some u) (huntil : (st.lockout username).lockedUntil = none) :
    (recordFailure maxAttempts minutes st username now).lockout =
      Function.update st.lockout username
        ((st.lockout username).fail now maxAttempts (minutes * 60)) := by
  rw [lockout_of_userNamed hu] at huntil ⊢
  have huntil' : u.lockedUntil = none := huntil
  have hfail : u.lockout.fail now maxAttempts (minutes * 60) =
      (failedRow maxAttempts minutes now u).lockout := by
    simp [User.lockout, Lockout.fail, Lockout.locked, Lockout.expire, failedRow, huntil']
  unfold recordFailure
  rw [hu, hfail]
  exact lockout_setUser (by intro; rfl) hu

theorem lockout_clearFailures (st : Accounts) (username : String) :
    (clearFailures st username).lockout = Function.update st.lockout username {} := by
  unfold clearFailures
  cases hu : st.userNamed username with
  | none => rw [← lockout_of_none hu, Function.update_eq_self]
  | some u =>
    dsimp only
    split_ifs with hfailed
    · exact lockout_setUser (by intro; rfl) hu
    · have hclear : u.lockout = {} := by
        simp only [Bool.or_eq_true, decide_eq_true_eq, not_or, not_not, Bool.not_eq_true,
          Option.isSome_eq_false_iff, Option.isNone_iff_eq_none] at hfailed
        simp [User.lockout, hfailed]
      rw [← hclear, ← lockout_of_userNamed hu, Function.update_eq_self]

theorem exists_clearFailures (hu : st.userNamed username = some u) :
    ∃ u', (clearFailures st username).userNamed username = some u' ∧ u'.id = u.id ∧
      u'.failedLogins = 0 := by
  have hlockout := congrFun (lockout_clearFailures st username) username
  rw [Function.update_self] at hlockout
  have hfound : ∃ u', (clearFailures st username).userNamed username = some u' ∧
      u'.id = u.id := by
    unfold clearFailures
    rw [hu]
    dsimp only
    split_ifs
    · rw [userNamed_setUser_of_userNamed (by intro; rfl) hu, if_pos rfl]
      exact ⟨_, rfl, rfl⟩
    · exact ⟨u, hu, rfl⟩
  obtain ⟨u', hu', hid⟩ := hfound
  rw [lockout_of_userNamed hu'] at hlockout
  exact ⟨u', hu', hid, congrArg Lockout.failures hlockout⟩

theorem lockout_of_getOrCreateSsoUser {st' : Accounts} {p : SsoProvider}
    {email fullname : String} {externalData : Members} {id : ℕ}
    (h : getOrCreateSsoUser st p username email fullname externalData now = .user id st') :
    (∃ u, st'.userNamed username = some u ∧ u.id = id) ∧ st'.lockout = st.lockout := by
  unfold getOrCreateSsoUser at h
  cases hu : st.userNamed username with
  | some u =>
    rw [hu] at h
    dsimp only at h
    split_ifs at h with hupdate
    · cases hrole : resolveRole p externalData with
      | none =>
        rw [hrole] at h
        cases h
      | some role =>
        rw [hrole] at h
        cases h
        refine ⟨?_, lockout_setUser_of_eq (by intro; rfl) (by intro; rfl)⟩
        rw [userNamed_setUser_of_userNamed (by intro; rfl) hu, if_pos rfl]
        exact ⟨_, rfl, rfl⟩
    · cases h
      exact ⟨⟨u, hu, rfl⟩, rfl⟩
  | none =>
    rw [hu] at h
    dsimp only at h
    split_ifs at h
    cases hrole : resolveRole p externalData with
    | none =>
      rw [hrole] at h
      cases h
    | some role =>
      rw [hrole] at h
      dsimp only at h
      cases hadd : st.addUser (createdUser username email fullname role now) with
      | none =>
        rw [hadd] at h
        cases h
      | some st'' =>
        rw [hadd] at h
        cases h
        have hnamed := Accounts.userNamed_addUser hadd
        refine ⟨⟨_, (hnamed username).trans (if_pos rfl), rfl⟩, ?_⟩
        funext name
        unfold Accounts.lockout
        rw [hnamed]
        by_cases hname : username = name
        · rw [← hname, hu]
          simp [createdUser, User.lockout]
        · simp [createdUser, hname]

end Helpers

abbrev Tracker := String → Lockout

def Tracks (st : Accounts) (T : Tracker) (now : Time) : Prop :=
  ∀ name, (st.lockout name).Agrees (T name) now

def lockoutPeriod : ℤ := lockoutDurationMinutes * 60

namespace Tracks

variable {st st' : Accounts} {T : Tracker} {username : String} {now : Time}

theorem mono {later : Time} (h : Tracks st T now) (hle : now ≤ later) : Tracks st T later :=
  fun name => (h name).mono hle

theorem update {l m : Lockout} (h : Tracks st T now)
    (hst' : st'.lockout = Function.update st.lockout username l) (hagrees : l.Agrees m now) :
    Tracks st' (Function.update T username m) now := by
  intro name
  rw [hst', Function.update_apply, Function.update_apply]
  split_ifs
  · exact hagrees
  · exact h name

theorem keep {l : Lockout} (h : Tracks st T now)
    (hst' : st'.lockout = Function.update st.lockout username l)
    (hagrees : l.Agrees (T username) now) : Tracks st' T now := by
  have hupdate := h.update hst' hagrees
  rwa [Function.update_eq_self] at hupdate

theorem check (h : Tracks st T now) : Tracks (checkLockout st username now).2 T now :=
  h.keep lockout_checkLockout (h username).expire_left

theorem clear (h : Tracks st T now) :
    Tracks (clearFailures st username) (Function.update T username {}) now :=
  h.update (lockout_clearFailures _ _) .refl

end Tracks

/-- What a tracker for the name makes of an answer: a right password starts again, and a
refusal of an account that exists is a failed attempt. -/
def tracked (st : Accounts) (T : Tracker) (now : Time) (name : String) (a : LoginAnswer) :
    Tracker :=
  if a.verified.isSome then Function.update T name {}
  else if a.status = 401 ∧ (st.userNamed name).isSome = true then
    Function.update T name ((T name).fail now maxFailedAttempts lockoutPeriod)
  else T

/-- Only an account that the tracker does not lock is signed in, and then its counter is
zero. -/
def Respects (T : Tracker) (now : Time) (a : LoginAnswer) : Prop :=
  ∀ id, a.verified = some id → ∃ u, a.accounts.users.get? id = some u ∧
    (T u.username).locked now = false ∧ u.failedLogins = 0

/-- An answer respects the tracker, and leaves rows that are in step with it. -/
def InStep (st : Accounts) (T : Tracker) (now : Time) (name : String) (a : LoginAnswer) : Prop :=
  Respects T now a ∧ Tracks a.accounts (tracked st T now name a) now

section Routes

variable {c : LoginContext} {T : Tracker} {st : Accounts} {username password name : String}

theorem respects_refuse {now : Time} {status : ℕ} {message : String} :
    Respects T now (c.refuse status message st) :=
  fun _ hid => absurd hid (Option.some_ne_none _).symm

theorem inStep_refuse {status : ℕ} {message : String} (h : Tracks st T c.now)
    (hstatus : status ≠ 401) : InStep c.accounts T c.now name (c.refuse status message st) := by
  refine ⟨respects_refuse, ?_⟩
  simpa [tracked, LoginContext.refuse, hstatus] using h

theorem inStep_failed {message : String} {u : User}
    (hu : c.accounts.userNamed username = some u)
    (h : Tracks st (Function.update T username
      ((T username).fail c.now maxFailedAttempts lockoutPeriod)) c.now) :
    InStep c.accounts T c.now username (c.refuse 401 message st) := by
  refine ⟨respects_refuse, ?_⟩
  simpa [tracked, LoginContext.refuse, hu] using h

theorem inStep_recordFailure {message : String} (h : Tracks c.accounts T c.now)
    (hcheck : checkLockout c.accounts username c.now = (false, st)) :
    InStep c.accounts T c.now username (c.refuse 401 message
      (recordFailure maxFailedAttempts lockoutDurationMinutes st username c.now)) := by
  have hst : st = (checkLockout c.accounts username c.now).2 := by rw [hcheck]
  have htracks : Tracks st T c.now := hst ▸ h.check
  have hlocked : (c.accounts.lockout username).locked c.now = false := by
    rw [← fst_checkLockout, hcheck]
  have huntil : (st.lockout username).lockedUntil = none := by
    rw [hst, lockout_checkLockout, Function.update_self]
    exact Lockout.lockedUntil_expire_eq_none.mpr hlocked
  cases hu : c.accounts.userNamed username with
  | none =>
    have hnone : st.userNamed username = none := by
      rw [hst, ← Option.not_isSome_iff_eq_none, isSome_checkLockout, hu]
      exact Bool.false_ne_true
    have hsame : recordFailure maxFailedAttempts lockoutDurationMinutes st username c.now = st := by
      rw [recordFailure, hnone]
    rw [hsame]
    refine ⟨respects_refuse, ?_⟩
    simpa [tracked, LoginContext.refuse, hu] using htracks
  | some u =>
    obtain ⟨u', hu'⟩ : ∃ u', st.userNamed username = some u' := by
      rw [← Option.isSome_iff_exists, hst, isSome_checkLockout, hu, Option.isSome_some]
    refine inStep_failed hu (htracks.update (lockout_recordFailure hu' huntil) ?_)
    exact (htracks username).fail maxFailedAttempts lockoutPeriod

theorem inStep_clearFailures {a : LoginAnswer} {u : User} {st' : Accounts}
    (h : Tracks c.accounts T c.now)
    (hcheck : checkLockout c.accounts username c.now = (false, st))
    (hst' : st'.lockout = st.lockout) (hu : st'.userNamed username = some u)
    (husers : a.accounts.users = (clearFailures st' username).users)
    (hverified : a.verified = some u.id) : InStep c.accounts T c.now username a := by
  have hst : st = (checkLockout c.accounts username c.now).2 := by rw [hcheck]
  have hlocked : (T username).locked c.now = false := by
    rw [← (h username).locked_eq, ← fst_checkLockout, hcheck]
  have htracks : Tracks st' T c.now := by
    unfold Tracks
    rw [hst', hst]
    exact h.check
  have hlockout : a.accounts.lockout = (clearFailures st' username).lockout := by
    funext name
    unfold Accounts.lockout Accounts.userNamed
    rw [husers]
  obtain ⟨u', hu', hid, hzero⟩ := exists_clearFailures hu
  constructor
  · intro id hid'
    rw [hverified, Option.some.injEq] at hid'
    refine ⟨u', ?_, ?_, hzero⟩
    · rw [husers, ← hid', ← hid]
      exact Table.get?_eq_some_iff.mpr ⟨Accounts.mem_of_userNamed hu', rfl⟩
    · rw [Accounts.username_of_userNamed hu', hlocked]
  · rw [tracked, hverified, if_pos Option.isSome_some]
    unfold Tracks
    rw [hlockout]
    exact htracks.clear

variable [AccountLibrary]

theorem inStep_login (h : Tracks c.accounts T c.now) :
    InStep c.accounts T c.now (strip username) (login c username password) := by
  unfold login
  split_ifs
  · exact inStep_refuse h (by decide)
  · have hcheck : Tracks (checkLockout c.accounts (strip username) c.now).2 T c.now := h.check
    cases hresult : checkAccountLockout c.accounts (strip username) c.now with
    | mk locked st =>
      have hresult' : checkLockout c.accounts (strip username) c.now = (locked, st) := hresult
      rw [hresult'] at hcheck
      cases locked with
      | true => exact inStep_refuse hcheck (by decide)
      | false =>
        dsimp only
        unfold loginUnlocked
        cases hu : st.userNamed (strip username) with
        | none => exact inStep_recordFailure h hresult'
        | some u =>
          dsimp only
          split_ifs
          · exact inStep_clearFailures h hresult' rfl hu rfl rfl
          · exact inStep_recordFailure h hresult'

/-- A password sent to the route that does not ask for lockouts does not get in its way: a
locked account refuses it, and otherwise it is right, or wrong for an active account that it
neither locks nor finds with an old lock. -/
def PasswordCounts (u : User) (password : String) (now : Time) : Prop :=
  if u.lockout.locked now = true then
    ¬(u.active = true ∧ AccountLibrary.checkPasswordHash u.passwordHash password = true)
  else
    u.active = true ∧ (AccountLibrary.checkPasswordHash u.passwordHash password = true ∨
      u.lockedUntil = none ∧ u.failedLogins + 1 < maxFailedAttempts)

omit [AccountLibrary] in
theorem inStep_wrong {message : String} {u : User} (h : Tracks c.accounts T c.now)
    (hu : c.accounts.userNamed username = some u)
    (hagrees : Lockout.Agrees ⟨u.failedLogins + 1, u.lockedUntil⟩
      ((T username).fail c.now maxFailedAttempts lockoutPeriod) c.now) :
    InStep c.accounts T c.now username (c.refuse 401 message
      (c.accounts.setUser u.id fun u => { u with failedLogins := u.failedLogins + 1 })) :=
  inStep_failed hu (h.update (lockout_setUser (by intro; rfl) hu) hagrees)

omit [AccountLibrary] in
theorem inStep_signedIn {a : LoginAnswer} {u : User} (h : Tracks c.accounts T c.now)
    (hu : c.accounts.userNamed username = some u) (hlocked : u.lockout.locked c.now = false)
    (haccounts : a.accounts = c.accounts.setUser u.id (signedInRow c.now))
    (hverified : a.verified = some u.id) : InStep c.accounts T c.now username a := by
  have hagrees := h username
  rw [lockout_of_userNamed hu] at hagrees
  have hget : c.accounts.users.get? u.id = some u :=
    Table.get?_eq_some_iff.mpr ⟨Accounts.mem_of_userNamed hu, rfl⟩
  constructor
  · intro id hid
    rw [hverified] at hid
    cases hid
    rw [haccounts]
    refine ⟨_, Table.get?_update_self hget, ?_, rfl⟩
    have hname := Accounts.username_of_userNamed hu
    change (T u.username).locked c.now = false
    rw [hname, ← hagrees.locked_eq, hlocked]
  · rw [tracked, hverified, haccounts, if_pos (Option.isSome_some)]
    refine h.update (lockout_setUser (by intro; rfl) hu) (Lockout.agrees_of_expire_eq ?_)
    -- what is left of an old lock runs out before it is asked for
    have huntil := Lockout.lockedUntil_expire_eq_none.mpr hlocked
    revert huntil
    unfold Lockout.expire User.lockout signedInRow
    cases u.lockedUntil with
    | none => simp
    | some until' =>
      dsimp only
      split_ifs
      · simp
      · simp

theorem inStep_loginPassword (h : Tracks c.accounts T c.now)
    (hcounts : username ≠ "" → password ≠ "" → ∀ u, c.accounts.userNamed username = some u →
      PasswordCounts u password c.now) :
    InStep c.accounts T c.now username (loginPassword c username password) := by
  unfold loginPassword
  split_ifs with hempty
  · exact inStep_refuse h (by decide)
  rw [not_or] at hempty
  cases hu : c.accounts.userNamed username with
  | none =>
    refine ⟨respects_refuse, ?_⟩
    simpa [tracked, LoginContext.refuse, hu] using h
  | some u =>
    have hcount := hcounts hempty.1 hempty.2 u hu
    have hagrees := h username
    rw [lockout_of_userNamed hu] at hagrees
    unfold PasswordCounts at hcount
    dsimp only
    cases hlocked : u.lockout.locked c.now with
    | true =>
      rw [if_pos hlocked] at hcount
      have hfail : (T username).fail c.now maxFailedAttempts lockoutPeriod = T username := by
        have hT : (T username).locked c.now = true := hagrees.locked_eq ▸ hlocked
        simp [Lockout.fail, hT]
      split_ifs with hinactive hwrong
      · refine inStep_failed hu ?_
        rwa [hfail, Function.update_eq_self]
      · exact inStep_wrong h hu (hfail.symm ▸ hagrees.of_locked hlocked)
      · exact absurd ⟨by simpa using hinactive, by simpa using hwrong⟩ hcount
      · exact absurd ⟨by simpa using hinactive, by simpa using hwrong⟩ hcount
    | false =>
      rw [if_neg (by simp [hlocked])] at hcount
      obtain ⟨hactive, hright⟩ := hcount
      rw [if_neg (by simp [hactive])]
      split_ifs with hwrong
      · obtain ⟨huntil, hfew⟩ := hright.resolve_left (by simp [hwrong])
        have hfail : u.lockout.fail c.now maxFailedAttempts lockoutPeriod =
            ⟨u.failedLogins + 1, u.lockedUntil⟩ := by
          have hmany : ¬maxFailedAttempts ≤ u.failedLogins + 1 := by omega
          simp [User.lockout, Lockout.fail, Lockout.locked, Lockout.expire, huntil, hmany]
        exact inStep_wrong h hu (hfail ▸ hagrees.fail maxFailedAttempts lockoutPeriod)
      · exact inStep_signedIn h hu hlocked rfl rfl
      · exact inStep_signedIn h hu hlocked rfl rfl

end Routes

def directoryName (d : LdapDirectory) (p : SsoProvider) (username : String) : String :=
  match d.search p.ldapBaseDn (userFilter d p username)
      [p.ldapUsernameAttr, p.ldapEmailAttr, p.ldapFullnameAttr] with
  | some (entry :: _) => entryText d entry p.ldapUsernameAttr username
  | _ => username

def ldapAccount (d : LdapDirectory) (st : Accounts) (username : String)
    (providerId : Option ℕ) : String :=
  match (ldapProvider st providerId).filter SsoProvider.enabled with
  | some p => if d.serviceBinds then directoryName d p username else username
  | none => username

section Directory

variable {d : LdapDirectory} {p : SsoProvider} {c : LoginContext} {T : Tracker} {st : Accounts}
  {username password : String} {providerId : Option ℕ}

theorem username_of_ldapAuthenticateUser {info : LdapUserInfo}
    (h : ldapAuthenticateUser d p username password = .ok info) :
    d.serviceBinds = true ∧ info.username = directoryName d p username := by
  unfold ldapAuthenticateUser at h
  unfold directoryName
  cases hbinds : d.serviceBinds with
  | false =>
    rw [hbinds, if_pos rfl] at h
    cases h
  | true =>
    rw [hbinds, if_neg (by simp)] at h
    dsimp only at h
    cases hsearch : d.search p.ldapBaseDn (userFilter d p username)
        [p.ldapUsernameAttr, p.ldapEmailAttr, p.ldapFullnameAttr] with
    | none => simp [hsearch] at h
    | some entries =>
      rw [hsearch] at h
      cases entries with
      | nil => simp at h
      | cons entry rest =>
        dsimp only at h
        cases huser : d.userBinds entry.dn password with
        | none => simp [huser] at h
        | some right =>
          cases right with
          | false => simp [huser] at h
          | true =>
            rw [huser] at h
            cases h
            exact ⟨rfl, rfl⟩

theorem providers_checkLockout {now : Time} :
    (checkLockout st username now).2.providers = st.providers := by
  unfold checkLockout
  cases st.userNamed username with
  | none => rfl
  | some u =>
    dsimp only
    cases u.lockedUntil with
    | none => rfl
    | some until' =>
      dsimp only
      split_ifs
      · rfl
      · rfl

theorem inStep_ldapLogin (h : Tracks c.accounts T c.now)
    (hname : username ≠ "" → password ≠ "" →
      ldapAccount d c.accounts username providerId = username) :
    InStep c.accounts T c.now (ldapAccount d c.accounts username providerId)
      (ldapLogin d c username password providerId) := by
  unfold ldapLogin
  split_ifs with hempty
  · exact inStep_refuse h (by decide)
  rw [not_or] at hempty
  have hsame := hname hempty.1 hempty.2
  rw [hsame]
  have hcheck : Tracks (checkLockout c.accounts username c.now).2 T c.now := h.check
  have hproviders : (checkLockout c.accounts username c.now).2.providers = c.accounts.providers :=
    providers_checkLockout
  cases hresult : checkLdapLockout c.accounts username c.now with
  | mk locked st =>
    have hresult' : checkLockout c.accounts username c.now = (locked, st) := hresult
    rw [hresult'] at hcheck hproviders
    cases locked with
    | true => exact inStep_refuse hcheck (by decide)
    | false =>
      have hprovider : ldapProvider st providerId = ldapProvider c.accounts providerId := by
        unfold ldapProvider
        rw [show st.providers = c.accounts.providers from hproviders]
      dsimp only
      unfold ldapLoginUnlocked
      rw [hprovider]
      unfold ldapAccount at hsame
      cases hp : ldapProvider c.accounts providerId with
      | none => exact inStep_refuse hcheck (by decide)
      | some p =>
        dsimp only
        split_ifs with hdisabled
        · exact inStep_refuse hcheck (by decide)
        cases hauth : ldapAuthenticateUser d p username password with
        | error message => exact inStep_recordFailure h hresult'
        | ok info =>
          obtain ⟨hbinds, hinfo⟩ := username_of_ldapAuthenticateUser hauth
          have hfilter : Option.filter SsoProvider.enabled (some p) = some p :=
            Option.filter_some_pos (by simpa using hdisabled)
          have htyped : info.username = username := by
            rw [hp, hfilter] at hsame
            simpa [hbinds, ← hinfo] using hsame
          dsimp only
          cases huser : getOrCreateSsoUser st p info.username info.email info.fullname
              (ldapExternalData info) c.now with
          | refused code => exact inStep_refuse hcheck (by decide)
          | raised pending => exact inStep_refuse hcheck (by decide)
          | user id st' =>
            rw [htyped] at huser
            obtain ⟨⟨u, hu, rfl⟩, hlockout⟩ := lockout_of_getOrCreateSsoUser huser
            exact inStep_clearFailures h hresult' hlockout hu (users_trackSession _ _ _) rfl

end Directory

variable [AccountLibrary]

def account (s : LoginState) (r : LoginRequest) : Option String :=
  match r.route with
  | .login username _ => some (strip username)
  | .loginPassword username _ => some username
  | .login2fa _ => none
  | .ldapLogin d username _ providerId => some (ldapAccount d s.accounts username providerId)

abbrev Tracked := LoginState × Tracker

def step (s : Tracked) (r : LoginRequest) : Tracked :=
  (s.1.serve r,
    match account s.1 r with
    | some name => tracked s.1.accounts s.2 (s.1.now + r.elapsed) name (s.1.answer r)
    | none => s.2)

def start (s : LoginState) : Tracked := (s, s.accounts.lockout)

/-- No password route signs in an account that has used up its attempts on any of them, before
the lockout has run out; and after a sign-in the counter is zero. -/
def Honoured (s : Tracked) (r : LoginRequest) : Prop :=
  Respects s.2 (s.1.now + r.elapsed) (s.1.answer r)

def Counts (s : Tracked) (r : LoginRequest) : Prop :=
  match r.route with
  | .login _ _ => True
  | .loginPassword username password =>
    username ≠ "" → password ≠ "" → ∀ u, s.1.accounts.userNamed username = some u →
      PasswordCounts u password (s.1.now + r.elapsed)
  | .login2fa _ => True
  | .ldapLogin d username password providerId =>
    username ≠ "" → password ≠ "" → ldapAccount d s.1.accounts username providerId = username

theorem login2fa_lockout (c : LoginContext) (code : String) :
    (login2fa c code).verified = none ∧ (login2fa c code).accounts.lockout = c.accounts.lockout := by
  unfold login2fa
  cases c.session.pending2fa with
  | none => exact ⟨rfl, rfl⟩
  | some pending =>
    dsimp only
    split_ifs
    · exact ⟨rfl, rfl⟩
    · exact ⟨rfl, rfl⟩
    · cases c.accounts.users.get? pending.userId with
      | none => exact ⟨rfl, rfl⟩
      | some u =>
        dsimp only
        split_ifs
        · exact ⟨rfl, rfl⟩
        · cases u.totpSecret with
          | none => exact ⟨rfl, rfl⟩
          | some secret =>
            dsimp only
            split_ifs
            · exact ⟨rfl, rfl⟩
            · cases takeRecoveryCode u.backupCodes code with
              | used remaining =>
                exact ⟨rfl, lockout_setUser_of_eq (by intro; rfl) (by intro; rfl)⟩
              | invalid => exact ⟨rfl, rfl⟩
              | raised => exact ⟨rfl, rfl⟩

theorem honoured_of_counts {s : Tracked} {r : LoginRequest}
    (htracks : Tracks s.1.accounts s.2 s.1.now) (hcounts : Counts s r) :
    Honoured s r ∧ Tracks (step s r).1.accounts (step s r).2 (step s r).1.now := by
  obtain ⟨s, T⟩ := s
  have hlater : Tracks s.accounts T (s.now + r.elapsed) :=
    htracks.mono (Int.le_add_of_nonneg_right (Int.natCast_nonneg r.elapsed))
  obtain ⟨elapsed, cookie, route⟩ := r
  cases route with
  | login username password => exact inStep_login hlater
  | loginPassword username password => exact inStep_loginPassword hlater hcounts
  | login2fa code =>
    obtain ⟨hverified, hlockout⟩ :=
      login2fa_lockout (s.context ⟨elapsed, cookie, .login2fa code⟩) code
    constructor
    · intro id hid
      exact absurd (hverified.symm.trans hid) (Option.some_ne_none _).symm
    · intro name
      exact (congrFun hlockout name).symm ▸ hlater name
  | ldapLogin d username password providerId => exact inStep_ldapLogin hlater hcounts

omit [AccountLibrary] in
@[reducible] def plainLibrary : AccountLibrary where
  checkPasswordHash hash password := hash = password
  totpVerify _ _ _ _ := false
  loads _ := none
  dumps _ := ""

omit [AccountLibrary] in
def plainState : LoginState where
  accounts :=
    { users := (∅ : Table User).insert
        { username := "root", email := "root@ca", passwordHash := "secret" } }

omit [AccountLibrary] in
def tries (route : String → LoginRoute) (passwords : List String) : List LoginRequest :=
  passwords.map fun password => ⟨1, "c", route password⟩

end AccountLockout

end CaManager
