import CaManager.Accounts.PasswordLogin
import CaManager.Library.Machines

/-!
# The second factor

A user with a confirmed second factor should get a session from a password login only with a
code. The routes that check a password are followed through any sequence of requests, while
every other part of the program changes the accounts and the sessions as it likes.
-/

namespace CaManager

open Library Sso

namespace SecondFactor

/-- A request to a login route, or anything that the rest of the program does. -/
inductive Event
  | request (r : LoginRequest)
  | elsewhere (accounts : Accounts) (sessions : String → BrowserSession)

variable [AccountLibrary]

def step (s : LoginState) : Event → LoginState
  | .request r => s.serve r
  | .elsewhere accounts sessions => { s with accounts, sessions }

/-- The recovery codes of a user that have not been used: each use removes one. -/
def unusedCodes (u : User) : List String :=
  match u.backupCodes with
  | none => []
  | some stored =>
    match AccountLibrary.loads stored with
    | some (.array codes) => codes.filterMap Json.text?
    | _ => []

/-- The request carries a code that is valid now, or a recovery code that was not used. -/
def Shows (s : LoginState) (r : LoginRequest) (u : User) : Prop :=
  ∃ code, r.route = .login2fa code ∧
    ((∃ secret, u.totpSecret = some secret ∧
        AccountLibrary.totpVerify secret code 1 (s.now + r.elapsed) = true) ∨
      code ∈ unusedCodes u)

def isPasswordRoute : LoginRoute → Bool
  | .login _ _ => true
  | .loginPassword _ _ => true
  | .login2fa _ => true
  | .ldapLogin _ _ _ _ => false

/-- A password route gives no session to a user with a confirmed second factor, unless the
request shows the factor. -/
def Asked (s : LoginState) : Event → Prop
  | .request r =>
    isPasswordRoute r.route = true →
      ∀ id u, (s.answer r).login = some id → s.accounts.users.get? id = some u →
        u.totpConfirmed = true → Shows s r u
  | .elsewhere _ _ => True

/-- A right password for an active, unlocked user with a confirmed second factor, sent to the
route that does not know of second factors. -/
def PasswordAlone (s : LoginState) : Event → Prop
  | .request r =>
    ∃ username password u, r.route = .login username password ∧ username ≠ "" ∧ password ≠ "" ∧
      s.accounts.userNamed (strip username) = some u ∧
      (∀ until', u.lockedUntil = some until' → until' ≤ s.now + r.elapsed) ∧
      u.active = true ∧ AccountLibrary.checkPasswordHash u.passwordHash password = true ∧
      u.totpConfirmed = true
  | .elsewhere _ _ => False

section Routes

open Login

variable {c : LoginContext} {st : Accounts} {now : Time} {username password code : String} {id : ℕ}

omit [AccountLibrary] in
theorem userNamed_of_unlocked {st' : Accounts} {u' : User}
    (h : checkAccountLockout st username now = (false, st'))
    (hu' : st'.userNamed username = some u') :
    ∃ u, st.userNamed username = some u ∧ u'.id = u.id ∧ u'.active = u.active ∧
      u'.passwordHash = u.passwordHash ∧
      ∀ until', u.lockedUntil = some until' → until' ≤ now := by
  unfold checkAccountLockout checkLockout at h
  cases hu : st.userNamed username with
  | none =>
    rw [hu] at h
    cases h
    rw [hu] at hu'
    cases hu'
  | some u =>
    rw [hu] at h
    dsimp only at h
    cases hlock : u.lockedUntil with
    | none =>
      rw [hlock] at h
      cases h
      rw [hu, Option.some.injEq] at hu'
      subst hu'
      exact ⟨u, rfl, rfl, rfl, rfl, by simp [hlock]⟩
    | some lockedUntil =>
      rw [hlock] at h
      dsimp only at h
      split_ifs at h with hnow
      · cases h
      · cases h
        rw [Accounts.userNamed_setUser (by intro; rfl), hu] at hu'
        simp only [Option.map_some, if_true, Option.some.injEq] at hu'
        subst hu'
        exact ⟨u, rfl, rfl, rfl, rfl, by simpa [hlock] using hnow⟩

omit [AccountLibrary] in
theorem unlocked_of_past {u : User} (hu : st.userNamed username = some u)
    (hpast : ∀ until', u.lockedUntil = some until' → until' ≤ now) :
    ∃ st' u', checkAccountLockout st username now = (false, st') ∧
      st'.userNamed username = some u' ∧ u'.id = u.id ∧ u'.active = u.active ∧
      u'.passwordHash = u.passwordHash := by
  unfold checkAccountLockout checkLockout
  rw [hu]
  dsimp only
  cases hlock : u.lockedUntil with
  | none => exact ⟨st, u, rfl, hu, rfl, rfl, rfl⟩
  | some lockedUntil =>
    dsimp only
    rw [if_neg (not_lt.mpr (hpast lockedUntil hlock))]
    refine ⟨_, { u with lockedUntil := none, failedLogins := 0 }, rfl, ?_, rfl, rfl, rfl⟩
    rw [Accounts.userNamed_setUser (by intro; rfl), hu]
    simp

theorem login_iff :
    (login c username password).login = some id ↔
      username ≠ "" ∧ password ≠ "" ∧ ∃ u, c.accounts.userNamed (strip username) = some u ∧
        (∀ until', u.lockedUntil = some until' → until' ≤ c.now) ∧ u.active = true ∧
        AccountLibrary.checkPasswordHash u.passwordHash password = true ∧ u.id = id := by
  unfold login
  constructor
  · intro h
    split_ifs at h with hempty
    · cases h
    · rw [not_or] at hempty
      refine ⟨hempty.1, hempty.2, ?_⟩
      split at h
      next => cases h
      next st hst =>
        unfold loginUnlocked at h
        split at h
        next => cases h
        next u' hu' =>
          split_ifs at h with hright
          · obtain ⟨u, hu, hid, hactive, hhash, hpast⟩ := userNamed_of_unlocked hst hu'
            rw [Bool.and_eq_true, hactive, hhash] at hright
            exact ⟨u, hu, hpast, hright.1, hright.2, hid ▸ Option.some.inj h⟩
          · cases h
  · rintro ⟨hname, hpassword, u, hu, hpast, hactive, hcheck, rfl⟩
    obtain ⟨st, u', hst, hu', hid, hactive', hhash'⟩ := unlocked_of_past hu hpast
    rw [if_neg (not_or.mpr ⟨hname, hpassword⟩), hst]
    simp [loginUnlocked, hu', hactive', hhash', hactive, hcheck, hid]

theorem unconfirmed_of_loginPassword {u : User}
    (h : (loginPassword c username password).login = some id)
    (hu : c.accounts.users.get? id = some u) : u.totpConfirmed = false := by
  unfold loginPassword at h
  split_ifs at h
  · cases h
  · split at h
    next => cases h
    next v hv =>
      split_ifs at h with _ _ htotp
      · cases h
      · cases h
      · cases h
        have hget : c.accounts.users.get? v.id = some v :=
          Table.get?_eq_some_iff.mpr ⟨Accounts.mem_of_userNamed hv, rfl⟩
        cases hget.symm.trans hu
        simpa using htotp

theorem unused_of_takeRecoveryCode {u : User} {remaining : String}
    (h : takeRecoveryCode u.backupCodes code = .used remaining) : code ∈ unusedCodes u := by
  unfold takeRecoveryCode at h
  unfold unusedCodes
  split at h
  next => cases h
  next => cases h
  next stored hstored =>
    rw [hstored]
    dsimp only
    split at h
    next => cases h
    next codes hcodes =>
      rw [hcodes]
      split_ifs at h with hany
      obtain ⟨v, hv, htext⟩ := List.any_eq_true.mp hany
      refine List.mem_filterMap.mpr ⟨v, hv, ?_⟩
      cases v <;> simp_all [Json.isText, Json.text?]
    next => split_ifs at h
    next => split_ifs at h
    next => cases h

theorem shown_of_login2fa {u : User} (h : (login2fa c code).login = some id)
    (hu : c.accounts.users.get? id = some u) :
    (∃ secret, u.totpSecret = some secret ∧
        AccountLibrary.totpVerify secret code 1 c.now = true) ∨ code ∈ unusedCodes u := by
  obtain ⟨pending, v, secret, _, _, _, hv, _, hsecret, hshown, rfl⟩ := login2fa_eq_some.mp h
  rw [← Table.key_of_get? hv] at hv
  obtain rfl := Option.some.inj (hv.symm.trans hu)
  rcases hshown with htotp | ⟨remaining, hused⟩
  · exact .inl ⟨secret, hsecret, htotp⟩
  · exact .inr (unused_of_takeRecoveryCode hused)

end Routes

theorem asked_iff (s : LoginState) (e : Event) : Asked s e ↔ ¬PasswordAlone s e := by
  cases e with
  | elsewhere accounts sessions => exact iff_of_true trivial not_false
  | request r =>
    obtain ⟨elapsed, cookie, route⟩ := r
    cases route with
    | login username password =>
      constructor
      · rintro hasked ⟨_, _, u, ⟨⟩, hname, hpassword, hu, hpast, hactive, hcheck, htotp⟩
        have hget : s.accounts.users.get? u.id = some u :=
          Table.get?_eq_some_iff.mpr ⟨Accounts.mem_of_userNamed hu, rfl⟩
        have hlogin : (s.answer ⟨elapsed, cookie, .login username password⟩).login = some u.id :=
          login_iff.mpr ⟨hname, hpassword, u, hu, hpast, hactive, hcheck, rfl⟩
        obtain ⟨code, hroute, -⟩ := hasked rfl u.id u hlogin hget htotp
        cases hroute
      · intro halone _ id u hlogin hget htotp
        obtain ⟨hname, hpassword, v, hv, hpast, hactive, hcheck, rfl⟩ := login_iff.mp hlogin
        have hget' : s.accounts.users.get? v.id = some v :=
          Table.get?_eq_some_iff.mpr ⟨Accounts.mem_of_userNamed hv, rfl⟩
        obtain rfl := Option.some.inj (hget'.symm.trans hget)
        exact absurd ⟨username, password, v, rfl, hname, hpassword, hv, hpast, hactive, hcheck,
          htotp⟩ halone
    | loginPassword username password =>
      refine iff_of_true ?_ ?_
      · intro _ id u hlogin hget htotp
        rw [unconfirmed_of_loginPassword hlogin hget] at htotp
        cases htotp
      · rintro ⟨_, _, _, ⟨⟩, _⟩
    | login2fa code =>
      refine iff_of_true ?_ ?_
      · intro _ id u hlogin hget _
        exact ⟨code, rfl, shown_of_login2fa hlogin hget⟩
      · rintro ⟨_, _, _, ⟨⟩, _⟩
    | ldapLogin d username password providerId =>
      refine iff_of_true ?_ ?_
      · intro hroute
        cases hroute
      · rintro ⟨_, _, _, ⟨⟩, _⟩

omit [AccountLibrary] in
/-- A library whose hash of a password is the password, and for which no code is valid. -/
@[reducible] def sampleAccountLibrary : AccountLibrary where
  checkPasswordHash hash password := hash = password
  totpVerify _ _ _ _ := false
  loads _ := none
  dumps _ := ""

omit [AccountLibrary] in
def sampleState : LoginState where
  accounts :=
    { users := (∅ : Table User).insert
        { username := "root", email := "root@ca", passwordHash := "secret"
          totpSecret := some "S", totpConfirmed := true } }

end SecondFactor

end CaManager
